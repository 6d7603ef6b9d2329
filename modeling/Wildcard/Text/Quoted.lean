import Wildcard.Text.Graphic

/-! Text in quotation marks, as messages show it.
The quotation mark, the backslash and the common control characters have short escapes; every
other character that cannot be shown on its own is written by its code point in hexadecimal.
-/

namespace Wildcard.Text

/-- A character by its code point, in lower case hexadecimal digits between braces. -/
def codePoint (c : Char) : List Char := ['\\', 'u', '{'] ++ Nat.toDigits 16 c.toNat ++ ['}']

def quotedChar (c : Char) : List Char :=
  match c with
  | '\x00' => ['\\', '0']
  | '\t' => ['\\', 't']
  | '\n' => ['\\', 'n']
  | '\r' => ['\\', 'r']
  | '"' => ['\\', '"']
  | '\\' => ['\\', '\\']
  | c => if standsAlone c then [c] else codePoint c

def quoted (text : List Char) : List Char := '"' :: (text.flatMap quotedChar ++ ['"'])

end Wildcard.Text
