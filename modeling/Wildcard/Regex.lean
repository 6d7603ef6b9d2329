import Wildcard.Regex.CharClass

/-! Regular expressions.
`Regex.Accepts` is their meaning. A stretch of text is accepted or not depending on whether it
begins where the whole text begins and on whether it ends where the whole text ends, since the
two anchors accept the empty stretch at these places only.
-/

namespace Wildcard

inductive Regex where
  | empty
  | one (set : CharClass)
  /-- The beginning of the text. -/
  | start
  /-- The end of the text. -/
  | stop
  | cat (first next : Regex)
  | alt (left right : Regex)
  /-- An expression in parentheses. A group may capture what it accepts, which makes no
  difference to what that is. -/
  | group (captures : Bool) (body : Regex)
  | atLeast (count : Nat) (body : Regex)

namespace Regex

/-- Expressions one after the other. -/
def sequence : List Regex → Regex
  | [] => .empty
  | [item] => item
  | item :: items => .cat item (sequence items)

/-- A choice between expressions. -/
def choice : List Regex → Regex
  | [] => .empty
  | [branch] => branch
  | branch :: branches => .alt branch (choice branches)

/-- So many or more stretches in a row, each accepted by `P`. -/
inductive Repeats (P : Bool → Bool → List Char → Prop) : Nat → Bool → Bool → List Char → Prop where
  | done (atStart atEnd : Bool) : Repeats P 0 atStart atEnd []
  | more {count : Nat} {atStart atEnd : Bool} {first rest : List Char}
      (here : P atStart (atEnd && rest.isEmpty) first)
      (next : Repeats P (count - 1) (atStart && first.isEmpty) atEnd rest)
      : Repeats P count atStart atEnd (first ++ rest)

/-- Whether a stretch of text is accepted, given whether it begins at the start of the text and
whether it ends at the end. -/
def Accepts : Regex → Bool → Bool → List Char → Prop
  | .empty, _, _, text => text = []
  | .one set, _, _, text => ∃ c, set.contains c ∧ text = [c]
  | .start, atStart, _, text => atStart ∧ text = []
  | .stop, _, atEnd, text => atEnd ∧ text = []
  | .cat first next, atStart, atEnd, text =>
      ∃ left right, text = left ++ right
        ∧ Accepts first atStart (atEnd && right.isEmpty) left
        ∧ Accepts next (atStart && left.isEmpty) atEnd right
  | .alt left right, atStart, atEnd, text =>
      Accepts left atStart atEnd text ∨ Accepts right atStart atEnd text
  | .group _ body, atStart, atEnd, text => Accepts body atStart atEnd text
  | .atLeast count body, atStart, atEnd, text => Repeats (Accepts body) count atStart atEnd text

/-- Whether some stretch of the text is accepted. -/
def Finds (r : Regex) (text : List Char) : Prop :=
  ∃ before found after, text = before ++ found ++ after
    ∧ r.Accepts before.isEmpty after.isEmpty found

end Regex

end Wildcard
