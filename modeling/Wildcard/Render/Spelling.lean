import Wildcard.Escaping
import Wildcard.Render.ScopedText

/-! Wildcard languages as spellings.
Unix wildcards and SQL92 expressions are written in the same way and differ in their operators
only. A repetition is written as that many copies of its body before an operator for any text.
-/

namespace Wildcard

/-- The operators of a wildcard language. -/
structure Spelling where
  operators : List Char
  anyChar : Char
  anyString : Char
  /-- What stands around the candidates of a choice. A language without brackets writes a choice
  as any character. -/
  brackets : Option (Char × Char)

namespace Spelling

open ScopedText

def handle (sp : Spelling) (e : Escaping) : Event → EStateM Error ScopedText Unit
  | .enter .empty _ _ => pure ()
  | .enter .anyChar _ _ => write [sp.anyChar]
  | .enter .literal _ chars => write (e.apply (chars.getD []))
  | .enter .oneOf _ chars =>
      match sp.brackets with
      | none => write [sp.anyChar]
      | some (first, _) => do
          openScope none
          write (first :: e.apply (chars.getD []))
  | .enter .group _ _ => openScope none
  | .enter .atLeast count _ => do openScope (some (← requireCount count))
  | .leave .oneOf =>
      match sp.brackets with
      | none => pure ()
      | some (_, last) => do
          write [last]
          closeScope
  | .leave .group => closeScope
  | .leave .atLeast => closeRepeated sp.anyString
  | .leave _ => pure ()

/-- Writes patterns in a wildcard language, with an escape before its operators, before the
extra characters and before the escape itself. -/
def renderer (sp : Spelling) (escape : Char) (extra : List Char)
    : Renderer ScopedText Error (List Char) where
  initial := .empty
  handle := sp.handle (Escaping.ofOperators sp.operators (some escape) extra)
  finish := do return (← get).text

end Spelling

end Wildcard
