import Wildcard.Pattern
import Wildcard.Render.Spelling
import Wildcard.Token

/-! Unix wildcards.
A wildcard is read from tokens, one item after the other, up to the end or to an operator that
begins no item. That operator is left unread, so that a wildcard can stand inside a larger
language whose own operators are in the alphabet.
-/

namespace Wildcard.Unix

def operators : List Char := ['*', '?', '[', ']', '"']

def escape : Char := '\\'

/-- The usual alphabet, with an escape character of one's own or none. -/
def alphabet (escape : Option Char) : Alphabet := ⟨escape, CharSet.ofList operators⟩

/-- The characters of the tokens before a closing operator, and the tokens after it. Without a
closing operator all tokens are inside. -/
def enclosed (close : Char) : List Token → List Char × List Token
  | [] => ([], [])
  | token :: tokens =>
      if token = .operator close then ([], tokens)
      else
        let (chars, rest) := enclosed close tokens
        (token.chars ++ chars, rest)

theorem length_enclosed_le (close : Char) (tokens : List Token)
    : (enclosed close tokens).2.length ≤ tokens.length := by
  induction tokens with
  | nil => exact Nat.le_refl _
  | cons token tokens ih =>
      rw [enclosed]
      split
      · exact Nat.le_succ _
      · exact Nat.le_succ_of_le ih

/-- The item at the front of some tokens and the tokens after it, if an item begins there. -/
def item? : List Token → Option (Pattern × List Token)
  | [] => none
  | .text chars :: rest => some (.literal chars, rest)
  | .operator '*' :: rest => some (.anyString, rest)
  | .operator '?' :: rest => some (.anyChar, rest)
  | .operator '[' :: rest => some (.oneOf (enclosed ']' rest).1, (enclosed ']' rest).2)
  | .operator '"' :: rest => some (.literal (enclosed '"' rest).1, (enclosed '"' rest).2)
  | .operator _ :: _ => none

theorem length_lt_of_item? {tokens rest : List Token} {item : Pattern}
    (h : item? tokens = some (item, rest))
    : rest.length < tokens.length := by
  unfold item? at h
  split at h <;> simp only [reduceCtorEq, Option.some.injEq, Prod.mk.injEq] at h
  all_goals obtain ⟨-, rfl⟩ := h
  all_goals first
    | exact Nat.lt_succ_self _
    | exact Nat.lt_succ_of_le (length_enclosed_le _ _)

/-- The items at the front of some tokens, and the tokens that are left unread. -/
def items (tokens : List Token) : List Pattern × List Token :=
  match _h : item? tokens with
  | none => ([], tokens)
  | some (item, rest) =>
      let (more, unread) := items rest
      (item :: more, unread)
termination_by tokens.length
decreasing_by exact length_lt_of_item? _h

theorem items_of_item? {tokens rest : List Token} {item : Pattern}
    (h : item? tokens = some (item, rest))
    : items tokens = (item :: (items rest).1, (items rest).2) := by
  rw [items]
  split
  · next hnone => exact absurd (h.symm.trans hnone) nofun
  · next hsome =>
      obtain ⟨rfl, rfl⟩ := Prod.mk.inj (Option.some.inj (h.symm.trans hsome))
      rfl

theorem items_of_item?_eq_none {tokens : List Token} (h : item? tokens = none)
    : items tokens = ([], tokens) := by
  rw [items]
  split
  · rfl
  · next hsome => exact absurd (h.symm.trans hsome) nofun

/-- Reads a wildcard from a stream and moves the stream past it. -/
def read (stream : TokenStream) : Pattern × TokenStream :=
  let (found, unread) := items stream.unread
  (Pattern.ofItems found, ⟨unread⟩)

/-- The wildcard at the front of a text. -/
def parse (a : Alphabet) (text : List Char) : Pattern := (read (TokenStream.ofText a text)).1

def spelling : Spelling where
  operators := operators
  anyChar := '?'
  anyString := '*'
  brackets := some ('[', ']')

/-- A pattern in the usual spelling. -/
def write? (p : Pattern) : Except Error (List Char) := p.render (spelling.renderer escape [])

end Wildcard.Unix
