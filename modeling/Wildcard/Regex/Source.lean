import Wildcard.Regex
import Wildcard.Regex.Lexeme

/-! Reading a regular expression.
The open groups are kept on a stack, each with its finished branches and the items of the branch
under way. A repetition takes the item just before it, so it cannot begin a branch.
-/

namespace Wildcard.Regex

/-- A group that is still open, with the last branch and the last item first. -/
structure OpenGroup where
  captures : Bool
  branches : List Regex
  items : List Regex

namespace OpenGroup

/-- A group right after its opening parenthesis. -/
def begin (captures : Bool) : OpenGroup := ⟨captures, [], []⟩

def add (g : OpenGroup) (item : Regex) : OpenGroup := { g with items := item :: g.items }

/-- Ends the branch under way and begins another. -/
def nextBranch (g : OpenGroup) : OpenGroup :=
  { g with branches := sequence g.items.reverse :: g.branches, items := [] }

def close (g : OpenGroup) : Regex := choice g.nextBranch.branches.reverse

/-- Repeats the last item, if there is one. -/
def repeatLast? (g : OpenGroup) (count : Nat) : Option OpenGroup :=
  match g.items with
  | [] => none
  | item :: items => some { g with items := .atLeast count item :: items }

end OpenGroup

/-- The group under way, and the open groups around it with the nearest first. The outermost of
them all is the whole expression. -/
structure OpenGroups where
  inner : OpenGroup
  outer : List OpenGroup

namespace OpenGroups

def empty : OpenGroups := ⟨.begin false, []⟩

def add (g : OpenGroups) (item : Regex) : OpenGroups := { g with inner := g.inner.add item }

/-- Takes one more symbol, unless it does not fit. -/
def step (g : OpenGroups) : Lexeme → Option OpenGroups
  | .one set => some (g.add (.one set))
  | .start => some (g.add .start)
  | .stop => some (g.add .stop)
  | .bar => some { g with inner := g.inner.nextBranch }
  | .opening captures => some ⟨.begin captures, g.inner :: g.outer⟩
  | .closing =>
      match g.outer with
      | [] => none
      | around :: outer => some ⟨around.add (.group g.inner.captures g.inner.close), outer⟩
  | .atLeast count => do return { g with inner := ← g.inner.repeatLast? count }

/-- The whole expression, once every group is closed. -/
def close? (g : OpenGroups) : Option Regex := if g.outer.isEmpty then some g.inner.close else none

end OpenGroups

/-- The expression that a text spells. -/
def ofSource? (source : List Char) : Option Regex := do
  let groups ← (← Lexeme.scan source).foldlM OpenGroups.step .empty
  groups.close?

end Wildcard.Regex
