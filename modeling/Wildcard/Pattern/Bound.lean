import Wildcard.Error
import Wildcard.Pattern
import Wildcard.Text

/-! Lower bounds and checked repetition.
The lower bound of a pattern is a text that no matching text comes before. It may be too long
to be written down; `atLeast?` refuses the counts that would make it so.

Only the copies in a bound have to fit into a text here. `Pattern.boundWithin` is the bound where
those of several items have to fit together as well.
-/

namespace Wildcard.Pattern

/-- The first of some characters in code point order. -/
def least? : List Char → Option Char
  | [] => none
  | c :: cs =>
      match least? cs with
      | none => some c
      | some d => some (if d < c then d else c)

/-- A bound repeated, unless the result is too long for a text. -/
def repeatBound (count : Nat) (bound : List Char) : Except Error (List Char) :=
  if Text.fits (Text.byteLength bound) count then .ok (Text.repeated count bound)
  else .error .boundTooLong

mutual

/-- A text that no matching text comes before. -/
def lowerBound : Pattern → Except Error (List Char)
  | .empty | .anyChar => .ok []
  | .literal text => .ok text
  | .oneOf candidates => .ok (least? candidates).toList
  | .group items => boundOfItems items
  | .atLeast body count =>
      if body.isSimple then do repeatBound count (← lowerBound body)
      else if count = 0 then .ok []
      else lowerBound body

/-- The bounds of the items, up to the first item that is not simple. -/
def boundOfItems : List Pattern → Except Error (List Char)
  | [] => .ok []
  | item :: items => do
      let bound ← lowerBound item
      if item.isSimple then return bound ++ (← boundOfItems items) else return bound

end

/-- The body repeated, unless the count is out of range or the bound becomes too long. -/
def atLeast? (body : Pattern) (count : Int) : Except Error Pattern := do
  if count < 0 ∨ Text.maxCount < count then throw (.countOutOfRange count)
  if body.isSimple then
    let bytes := Text.byteLength (← body.lowerBound)
    unless Text.fits bytes count.toNat do throw (.repetitionTooLong bytes count.toNat)
  return .atLeast body count.toNat

end Wildcard.Pattern
