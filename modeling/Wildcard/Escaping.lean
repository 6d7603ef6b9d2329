import Wildcard.CharSet

/-! Escaping of text: the escape character is written before every special character. -/

namespace Wildcard

/-- The escape character of a dialect, if it has one, and the characters it stands before. -/
structure Escaping where
  escape : Option Char
  specials : CharSet

namespace Escaping

/-- The operators of a dialect are special, and so are any extra characters and the escape. -/
def ofOperators (operators : List Char) (escape : Option Char) (extra : List Char) : Escaping where
  escape := escape
  specials := ((CharSet.ofList operators).union extra).union escape.toList

/-- Without an escape character, text stays as it is. -/
def apply (e : Escaping) (text : List Char) : List Char :=
  match e.escape with
  | none => text
  | some escape => text.flatMap fun c => if e.specials.contains c then [escape, c] else [c]

@[simp]
theorem apply_nil (e : Escaping)
    : e.apply [] = [] := by
  unfold apply
  split <;> rfl

@[simp]
theorem apply_append (e : Escaping) (s t : List Char)
    : e.apply (s ++ t) = e.apply s ++ e.apply t := by
  unfold apply
  split
  · rfl
  · exact List.flatMap_append

end Escaping

end Wildcard
