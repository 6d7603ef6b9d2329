import Wildcard.Error
import Wildcard.Escaping
import Wildcard.Render

/-! Writing the patterns that stand for one fixed text. The others are refused at their first node
that leaves a choice.
-/

namespace Wildcard.Fixed

def handle (e : Escaping) : Event → EStateM Error (List Char) Unit
  | .enter .empty _ _ | .enter .group _ _ => pure ()
  | .enter .literal _ chars => modify (· ++ e.apply (chars.getD []))
  | .enter kind _ _ => throw (.notSimple kind)
  | .leave _ => pure ()

/-- Nothing is escaped unless an escape character is given. -/
def renderer (escape : Option Char) (extra : List Char) : Renderer (List Char) Error (List Char) where
  initial := []
  handle := handle (Escaping.ofOperators [] escape extra)
  finish := get

end Wildcard.Fixed
