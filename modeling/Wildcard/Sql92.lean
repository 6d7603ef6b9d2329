import Wildcard.Error
import Wildcard.Pattern
import Wildcard.Render.Spelling
import Wildcard.Token

/-! Expressions of the SQL92 `LIKE` predicate.
Every token is an item. An operator other than the two of the language is an error, and is left
unread together with all that follows it.
-/

namespace Wildcard.Sql92

def operators : List Char := ['%', '_']

def escape : Char := '\\'

/-- The alphabet of the language, with an escape character of one's own or none. -/
def alphabet (escape : Option Char) : Alphabet := ⟨escape, CharSet.ofList operators⟩

def item? : Token → Option Pattern
  | .text chars => some (.literal chars)
  | .operator '%' => some .anyString
  | .operator '_' => some .anyChar
  | .operator _ => none

/-- The items of the tokens before the first foreign operator, and the tokens from there on. -/
def items : List Token → List Pattern × List Token
  | [] => ([], [])
  | token :: tokens =>
      match item? token with
      | none => ([], token :: tokens)
      | some item =>
          let (more, unread) := items tokens
          (item :: more, unread)

/-- Reads an expression to the end of a stream, or up to the operator at fault. -/
def read (stream : TokenStream) : Except Error Pattern × TokenStream :=
  match items stream.unread with
  | (_, .operator op :: unread) => (.error (.unknownOperator op), ⟨.operator op :: unread⟩)
  | (found, unread) => (.ok (Pattern.ofItems found), ⟨unread⟩)

/-- The expression that a text spells. -/
def parse (escape : Option Char) (text : List Char) : Except Error Pattern :=
  (read (TokenStream.ofText (alphabet escape) text)).1

def spelling : Spelling where
  operators := operators
  anyChar := '_'
  anyString := '%'
  brackets := none

end Wildcard.Sql92
