import Wildcard.Proofs.Pattern.Language
import Wildcard.Proofs.Token.Splitting
import Wildcard.Sql92

/-! What the tokens of an SQL92 expression match.
The alphabet of the language holds the two operators that begin an item and no others, so that
reading a text never stops at a foreign operator.
-/

namespace Wildcard.Sql92

open Pattern (MatchesAll)

variable {token : Token} {tokens : List Token} {text : List Char}

/-- Whether a text is matched by the items of some tokens. -/
def TokensMatch (tokens : List Token) (text : List Char) : Prop :=
  MatchesAll (items tokens).1 text

theorem items_of_item? {item : Pattern} (h : item? token = some item) (tokens : List Token)
    : items (token :: tokens) = (item :: (items tokens).1, (items tokens).2) := by
  rw [items, h]

@[simp]
theorem tokensMatch_nil
    : TokensMatch [] text ↔ text = [] :=
  Iff.rfl

theorem tokensMatch_text {chars : List Char}
    : TokensMatch (.text chars :: tokens) text
      ↔ ∃ rest, text = chars ++ rest ∧ TokensMatch tokens rest := by
  rw [TokensMatch, items_of_item? rfl]
  exact Pattern.matchesAll_cons_literal

/-- An ordinary character matches itself, whether or not a run follows it. -/
theorem tokensMatch_prepend {c : Char}
    : TokensMatch (Token.prepend c tokens) text
      ↔ ∃ rest, text = c :: rest ∧ TokensMatch tokens rest :=
  Token.matches_prepend (fun _ _ _ => tokensMatch_text) c tokens text

theorem tokensMatch_anyString
    : TokensMatch (.operator '%' :: tokens) text
      ↔ ∃ skipped rest, text = skipped ++ rest ∧ TokensMatch tokens rest := by
  rw [TokensMatch, items_of_item? rfl]
  exact Pattern.matchesAll_cons_anyString

theorem tokensMatch_anyChar
    : TokensMatch (.operator '_' :: tokens) text
      ↔ ∃ c rest, text = c :: rest ∧ TokensMatch tokens rest := by
  rw [TokensMatch, items_of_item? rfl]
  exact Pattern.matchesAll_cons_anyChar

-----------------------------------------------------------------------------------------
-- Reading a text never fails
-----------------------------------------------------------------------------------------

/-- Every operator of the alphabet begins an item. -/
theorem isSome_item?_of_contains {op : Char} (h : (CharSet.ofList operators).contains op)
    : (item? (.operator op)).isSome := by
  rcases List.mem_cons.mp (CharSet.contains_ofList.mp h) with rfl | h
  · rfl
  · rw [List.mem_singleton.mp h]
    rfl

/-- Tokens whose operators all begin items are read to the end, by induction on the tokens. -/
theorem unread_items_eq_nil
    (h : ∀ op, Token.operator op ∈ tokens → (item? (.operator op)).isSome)
    : (items tokens).2 = [] := by
  induction tokens with
  | nil => rfl
  | cons token tokens ih =>
      have begins : (item? token).isSome := by
        cases token with
        | text chars => rfl
        | operator op => exact h op List.mem_cons_self
      obtain ⟨item, hitem⟩ := Option.isSome_iff_exists.mp begins
      rw [items_of_item? hitem]
      exact ih fun op member => h op (List.mem_cons_of_mem token member)

/-- Any text spells an expression, which is made of the items of its tokens. -/
theorem parse_eq_ok (escape : Option Char) (source : List Char)
    : parse escape source
      = .ok (Pattern.ofItems (items ((alphabet escape).tokenize source)).1) := by
  have allRead : (items ((alphabet escape).tokenize source)).2 = [] :=
    unread_items_eq_nil fun op member =>
      isSome_item?_of_contains (Alphabet.isOperator_of_mem_tokenize member).1
  rw [parse, read, TokenStream.ofText]
  split
  · next hitems =>
      rw [hitems] at allRead
      exact absurd allRead nofun
  · next hitems =>
      rw [hitems]

/-- An expression matches what its tokens match. -/
theorem matches_of_parse {escape : Option Char} {source : List Char} {q : Pattern}
    (h : parse escape source = .ok q)
    : q.Matches text ↔ TokensMatch ((alphabet escape).tokenize source) text := by
  rw [parse_eq_ok] at h
  cases h
  exact Pattern.matches_ofItems

end Wildcard.Sql92
