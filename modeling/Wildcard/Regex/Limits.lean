import Wildcard.Regex.Room

/-! Limits on regular expressions.
An expression may be nested only so deep, and its machines may take only so much room.
-/

namespace Wildcard

namespace CharClass

mutual

/-- The depth of the brackets; the members of a bracket lie one deeper if there are several. -/
def levels : CharClass → Nat
  | .any | .single _ | .range _ _ => 0
  | .bracket _ members => mostLevels members + (if members.length < 2 then 1 else 2)

def mostLevels : List CharClass → Nat
  | [] => 0
  | member :: members => max (levels member) (mostLevels members)

end

end CharClass

namespace Regex

/-- The kind of chain that an expression is the tail of. -/
inductive Chain where
  | none
  | cat
  | alt
  deriving DecidableEq

/-- The depth of nesting; a chain of expressions in a row, or of choices, is one level. -/
def levels : Regex → Chain → Nat
  | .empty, _ | .start, _ | .stop, _ => 0
  | .one set, _ => set.levels
  | .cat first next, chain =>
      max (levels first .none) (levels next .cat) + (if chain = .cat then 0 else 1)
  | .alt left right, chain =>
      max (levels left .none) (levels right .alt) + (if chain = .alt then 0 else 1)
  | .group _ body, _ => levels body .none + 1
  | .atLeast _ body, _ => levels body .none + 1

def maxLevels : Nat := 250

/-- Ten mebibytes. -/
def maxRoom : Nat := 10485760

def withinLimits (r : Regex) : Bool :=
  r.levels .none ≤ maxLevels
  && r.machineRoom .forward ≤ maxRoom
  && r.machineRoom .backward ≤ maxRoom

end Regex

end Wildcard
