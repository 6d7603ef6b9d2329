import Wildcard.CharSet

/-! Splitting text into runs of ordinary characters and single operators.
The escape character of an alphabet makes the character after it ordinary, and wins over an
operator of the same spelling. An escape at the very end stands for itself.
-/

namespace Wildcard

/-- Which characters are special in a text. -/
structure Alphabet where
  escape : Option Char
  operators : CharSet

inductive Token where
  | text (chars : List Char)
  | operator (op : Char)
  deriving DecidableEq

namespace Token

def chars : Token → List Char
  | .text chars => chars
  | .operator op => [op]

/-- Puts an ordinary character in front, joining it to the run that follows. -/
def prepend (c : Char) : List Token → List Token
  | .text cs :: tokens => .text (c :: cs) :: tokens
  | tokens => .text [c] :: tokens

end Token

namespace Alphabet

def isEscape (a : Alphabet) (c : Char) : Bool := a.escape == some c

/-- Puts a character in front that no escape precedes: an operator, or one more of the run. -/
def push (a : Alphabet) (c : Char) (tokens : List Token) : List Token :=
  if a.operators.contains c then .operator c :: tokens else Token.prepend c tokens

def tokenize (a : Alphabet) : List Char → List Token
  | [] => []
  | c :: cs =>
      if a.isEscape c then
        match cs with
        | [] => [.text [c]]
        | d :: ds => Token.prepend d (tokenize a ds)
      else a.push c (tokenize a cs)

theorem tokenize_cons_of_not_isEscape (a : Alphabet) {c : Char} (h : a.isEscape c = false)
    (cs : List Char)
    : a.tokenize (c :: cs) = a.push c (a.tokenize cs) := by
  rw [tokenize.eq_def]
  simp only [h, Bool.false_eq_true, if_false]

theorem tokenize_cons_cons_of_isEscape (a : Alphabet) {c : Char} (h : a.isEscape c = true)
    (d : Char) (cs : List Char)
    : a.tokenize (c :: d :: cs) = Token.prepend d (a.tokenize cs) := by
  rw [tokenize.eq_def]
  simp only [h, if_true]

end Alphabet

/-- A place in a list of tokens: the tokens that are still to be read. -/
structure TokenStream where
  unread : List Token

namespace TokenStream

def ofText (a : Alphabet) (text : List Char) : TokenStream := ⟨a.tokenize text⟩

/-- The token at this place, if any is left. -/
def current (s : TokenStream) : Option Token := s.unread.head?

/-- The place after the current token; the end stays the end. -/
def advance (s : TokenStream) : TokenStream := ⟨s.unread.tail⟩

/-- The current token together with the place after it. -/
def next (s : TokenStream) : Option Token × TokenStream := (s.current, s.advance)

end TokenStream

end Wildcard
