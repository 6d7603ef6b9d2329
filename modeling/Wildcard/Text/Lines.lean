/-! Lines of a text.
A line feed ends a line, together with a carriage return just before it. What follows the last
line feed is a line of its own unless it is empty, and keeps its carriage return.
-/

namespace Wildcard.Text

/-- Puts a character in front of the first line. -/
def extendLine (c : Char) : List (List Char) → List (List Char)
  | [] => [[c]]
  | line :: lines => (c :: line) :: lines

/-- The lines of some text, and whether that text begins with a line feed. -/
structure LineTail where
  lines : List (List Char)
  atBreak : Bool

/-- Puts a character in front of some text. -/
def LineTail.cons (c : Char) (tail : LineTail) : LineTail :=
  if c = '\n' then ⟨[] :: tail.lines, true⟩
  else if c = '\r' && tail.atBreak then ⟨tail.lines, false⟩
  else ⟨extendLine c tail.lines, false⟩

def lines (text : List Char) : List (List Char) := (text.foldr LineTail.cons ⟨[], false⟩).lines

end Wildcard.Text
