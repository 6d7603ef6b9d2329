import Wildcard.Pattern.Kind

/-! Wildcard patterns.
A pattern is a tree of literals, single characters, groups and repetitions. `Pattern.ofItems`
builds the usual form, in which a group has at least two items, but every tree is a pattern.
-/

namespace Wildcard

inductive Pattern where
  /-- The empty text only. -/
  | empty
  /-- Exactly one character, whichever it is. -/
  | anyChar
  /-- Exactly the given text. -/
  | literal (text : List Char)
  /-- Exactly one of the candidates. -/
  | oneOf (candidates : List Char)
  /-- The items one after the other. -/
  | group (items : List Pattern)
  /-- The body repeated `count` times or more. -/
  | atLeast (body : Pattern) (count : Nat)

namespace Pattern

/-- Any text: any number of arbitrary characters. -/
def anyString : Pattern := .atLeast .anyChar 0

/-- The items one after the other, as a group only if there are several. -/
def ofItems : List Pattern → Pattern
  | [] => .empty
  | [item] => item
  | items => .group items

def followedBy (first next : Pattern) : Pattern := .group [first, next]

def kind : Pattern → Kind
  | .empty => .empty
  | .anyChar => .anyChar
  | .literal _ => .literal
  | .oneOf _ => .oneOf
  | .group _ => .group
  | .atLeast _ _ => .atLeast

def children : Pattern → List Pattern
  | .group items => items
  | .atLeast body _ => [body]
  | _ => []

/-- The characters that a literal or a choice carries. -/
def chars? : Pattern → Option (List Char)
  | .literal text => some text
  | .oneOf candidates => some candidates
  | _ => none

/-- The count that a repetition carries. -/
def count? : Pattern → Option Nat
  | .atLeast _ count => some count
  | _ => none

mutual

/-- Whether the pattern is made of literals only, so that it stands for one fixed text. -/
def isSimple : Pattern → Bool
  | .empty | .literal _ => true
  | .anyChar | .oneOf _ | .atLeast _ _ => false
  | .group items => allSimple items

def allSimple : List Pattern → Bool
  | [] => true
  | item :: items => isSimple item && allSimple items

end

end Pattern

end Wildcard
