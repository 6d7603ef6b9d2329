import Wildcard.Proofs.Pattern.Language
import Wildcard.Proofs.Token.Splitting
import Wildcard.Unix

/-! What the tokens of a wildcard match.
Each token is taken by itself: the run in front may be read character by character, and an
operator is followed by what the tokens after it match.
-/

namespace Wildcard.Unix

open Pattern (MatchesAll)

variable {tokens : List Token} {text : List Char}

/-- Whether a text is matched by the items of some tokens. -/
def TokensMatch (tokens : List Token) (text : List Char) : Prop :=
  MatchesAll (items tokens).1 text

@[simp]
theorem tokensMatch_nil
    : TokensMatch [] text ↔ text = [] := by
  rw [TokensMatch, items_of_item?_eq_none rfl]
  exact Iff.rfl

theorem tokensMatch_text {chars : List Char}
    : TokensMatch (.text chars :: tokens) text
      ↔ ∃ rest, text = chars ++ rest ∧ TokensMatch tokens rest := by
  rw [TokensMatch, items_of_item? rfl]
  exact Pattern.matchesAll_cons_literal

/-- An ordinary character matches itself, whether or not a run follows it. -/
theorem tokensMatch_prepend {c : Char}
    : TokensMatch (Token.prepend c tokens) text
      ↔ ∃ rest, text = c :: rest ∧ TokensMatch tokens rest :=
  Token.matches_prepend (fun _ _ _ => tokensMatch_text) c tokens text

theorem tokensMatch_anyString
    : TokensMatch (.operator '*' :: tokens) text
      ↔ ∃ skipped rest, text = skipped ++ rest ∧ TokensMatch tokens rest := by
  rw [TokensMatch, items_of_item? rfl]
  exact Pattern.matchesAll_cons_anyString

theorem tokensMatch_anyChar
    : TokensMatch (.operator '?' :: tokens) text
      ↔ ∃ c rest, text = c :: rest ∧ TokensMatch tokens rest := by
  rw [TokensMatch, items_of_item? rfl]
  exact Pattern.matchesAll_cons_anyChar

theorem tokensMatch_opening
    : TokensMatch (.operator '[' :: tokens) text
      ↔ ∃ c rest, text = c :: rest ∧ c ∈ (enclosed ']' tokens).1
          ∧ TokensMatch (enclosed ']' tokens).2 rest := by
  rw [TokensMatch, items_of_item? rfl]
  exact Pattern.matchesAll_cons_oneOf

theorem tokensMatch_quote
    : TokensMatch (.operator '"' :: tokens) text
      ↔ ∃ rest, text = (enclosed '"' tokens).1 ++ rest
          ∧ TokensMatch (enclosed '"' tokens).2 rest := by
  rw [TokensMatch, items_of_item? rfl]
  exact Pattern.matchesAll_cons_literal

/-- An operator that begins no item ends the wildcard. -/
theorem tokensMatch_of_item?_eq_none (h : item? tokens = none)
    : TokensMatch tokens text ↔ text = [] := by
  rw [TokensMatch, items_of_item?_eq_none h]
  exact Iff.rfl

/-- A wildcard matches what its tokens match. -/
theorem matches_parse {a : Alphabet} {source : List Char}
    : (parse a source).Matches text ↔ TokensMatch (a.tokenize source) text :=
  Pattern.matches_ofItems

-----------------------------------------------------------------------------------------
-- What is enclosed
-----------------------------------------------------------------------------------------

/-- An ordinary character in front is one more enclosed character. -/
theorem enclosed_prepend (close c : Char) (tokens : List Token)
    : enclosed close (Token.prepend c tokens)
      = (c :: (enclosed close tokens).1, (enclosed close tokens).2) := by
  unfold Token.prepend
  split <;> simp [enclosed, Token.chars]

theorem enclosed_close (close : Char) (tokens : List Token)
    : enclosed close (.operator close :: tokens) = ([], tokens) := by
  simp [enclosed]

/-- Another operator is one more enclosed character. -/
theorem enclosed_operator {close op : Char} (hne : op ≠ close) (tokens : List Token)
    : enclosed close (.operator op :: tokens)
      = (op :: (enclosed close tokens).1, (enclosed close tokens).2) := by
  simp [enclosed, hne, Token.chars]

/-- Ordinary characters in front are enclosed as well, by induction on them. -/
theorem enclosed_foldr_prepend (close : Char) (chars : List Char) (tokens : List Token)
    : enclosed close (chars.foldr Token.prepend tokens)
      = (chars ++ (enclosed close tokens).1, (enclosed close tokens).2) := by
  induction chars with
  | nil => rfl
  | cons c chars ih => rw [List.foldr_cons, enclosed_prepend, ih, List.cons_append]

/-- Ordinary characters before a closing operator are all that is enclosed. -/
theorem enclosed_foldr (close : Char) (chars : List Char) (tokens : List Token)
    : enclosed close (chars.foldr Token.prepend (.operator close :: tokens)) = (chars, tokens) := by
  rw [enclosed_foldr_prepend, enclosed_close, List.append_nil]

end Wildcard.Unix
