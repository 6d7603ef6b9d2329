import Wildcard.Error
import Wildcard.Escaping
import Wildcard.Render

/-! Writing a pattern as a regular expression between anchors.
A repetition is written after its body. A body that is not written as one unit, such as a
literal of two characters, is put into a group that captures nothing.
-/

namespace Wildcard.Expression

def operators : List Char :=
  ['[', ']', '(', ')', '*', '+', '?', '|', '.', ',', '^', '$', '{', '}', '#', '&', '-', '~']

def escape : Char := '\\'

def escaping : Escaping := Escaping.ofOperators operators (some escape) []

/-- The expression so far, and the open groups and repetitions with the innermost first. A group
has no count. -/
structure State where
  text : List Char
  scopes : List (Option Nat)

def write (chars : List Char) : EStateM Error State Unit :=
  modify fun s => { s with text := s.text ++ chars }

def openScope (count : Option Nat) : EStateM Error State Unit :=
  modify fun s => { s with scopes := count :: s.scopes }

/-- Takes away the innermost scope, if there is one. -/
def dropScope : EStateM Error State (Option (Option Nat)) :=
  modifyGet fun s => (s.scopes.head?, { s with scopes := s.scopes.tail })

/-- Whether what comes next is the body of a repetition. -/
def State.inRepetition (s : State) : Bool :=
  match s.scopes with
  | some _ :: _ => true
  | _ => false

/-- A text as one unit, in a group that captures nothing. -/
def unit (text : List Char) : List Char := ['(', '?', ':'] ++ text ++ [')']

/-- The beginning of a class that excludes every character, up to its closing bracket. -/
def emptyClass : List Char :=
  ['[', '^', '\\', 'x', '0', '0', '-', '\\', 'x', '{', '1', '0', 'F', 'F', 'F', 'F', '}']

/-- The mark for so many repetitions or more. -/
def quantifier : Nat → List Char
  | 0 => ['*']
  | 1 => ['+']
  | count => ['{'] ++ Nat.toDigits 10 count ++ [',', '}']

def handle : Event → EStateM Error State Unit
  | .enter .empty _ _ => do if (← get).inRepetition then write (unit [])
  | .enter .anyChar _ _ => write ['.']
  | .enter .literal _ chars => do
      let text := chars.getD []
      if (← get).inRepetition && text.length != 1 then write (unit (escaping.apply text))
      else write (escaping.apply text)
  | .enter .oneOf _ chars =>
      match chars.getD [] with
      | [] => write emptyClass
      | candidates => write ('[' :: escaping.apply candidates)
  | .enter .group _ _ => do
      openScope none
      write ['(']
  | .enter .atLeast count _ => do openScope (some (← requireCount count))
  | .leave .oneOf => write [']']
  | .leave .group => do
      let _ ← dropScope
      write [')']
  | .leave .atLeast => do
      match ← dropScope with
      | none => throw .unopenedScope
      | some count => write (quantifier (← requireCount count))
  | .leave _ => pure ()

def renderer : Renderer State Error (List Char) where
  initial := ⟨['^'], []⟩
  handle := handle
  finish := do return (← get).text ++ ['$']

end Wildcard.Expression
