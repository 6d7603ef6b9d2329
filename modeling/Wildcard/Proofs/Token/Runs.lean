import Mathlib.Data.List.Chain
import Wildcard.Proofs.Token.Splitting

/-! Runs of ordinary characters.
A text splits into runs that are as long as they can be: no run is empty, and no run follows
another. A run that is put together again from its characters is the same run.
-/

namespace Wildcard

namespace Token

variable {tokens rest : List Token}

def isText : Token → Bool
  | .text _ => true
  | .operator _ => false

/-- No run is empty and no run directly follows another. -/
structure InRuns (tokens : List Token) : Prop where
  nonempty : Token.text [] ∉ tokens
  apart : tokens.IsChain fun first next => first.isText → ¬ next.isText

theorem InRuns.nil
    : InRuns [] where
  nonempty := List.not_mem_nil
  apart := .nil

theorem InRuns.of_suffix (h : InRuns tokens) (suffix : rest <:+ tokens)
    : InRuns rest where
  nonempty member := h.nonempty (suffix.subset member)
  apart := h.apart.suffix suffix

theorem InRuns.tail {first : Token} (h : InRuns (first :: tokens))
    : InRuns tokens :=
  h.of_suffix (List.suffix_cons first tokens)

theorem InRuns.cons_operator (h : InRuns tokens) (op : Char)
    : InRuns (.operator op :: tokens) where
  nonempty member := by
    rcases List.mem_cons.mp member with same | member
    · exact absurd same nofun
    · exact h.nonempty member
  apart := List.isChain_cons.mpr ⟨fun _ _ isText => absurd isText nofun, h.apart⟩

theorem InRuns.cons_text (h : InRuns tokens) {chars : List Char} (nonempty : chars ≠ [])
    (apart : ∀ next ∈ tokens.head?, ¬ next.isText)
    : InRuns (.text chars :: tokens) where
  nonempty member := by
    rcases List.mem_cons.mp member with same | member
    · exact nonempty (Token.text.inj same).symm
    · exact h.nonempty member
  apart := List.isChain_cons.mpr ⟨fun next member _ => apart next member, h.apart⟩

theorem InRuns.ne_nil {chars : List Char} (h : InRuns (.text chars :: tokens))
    : chars ≠ [] := by
  intro empty
  exact h.nonempty (empty ▸ List.mem_cons_self)

/-- What follows a run is no run. -/
theorem InRuns.not_isText_head? {chars : List Char} (h : InRuns (.text chars :: tokens))
    : ∀ next ∈ tokens.head?, ¬ next.isText :=
  fun _ member => h.apart.rel_head? member rfl

/-- An ordinary character in front joins the run that is there or begins a run of its own. -/
theorem InRuns.prepend (h : InRuns tokens) (c : Char)
    : InRuns (Token.prepend c tokens) := by
  have single : [c] ≠ [] := List.cons_ne_nil c []
  cases tokens with
  | nil => exact h.cons_text single nofun
  | cons token tokens =>
      cases token with
      | text chars => exact h.tail.cons_text (List.cons_ne_nil c chars) h.not_isText_head?
      | operator op => exact h.cons_text single (by simp [isText])

/-- Characters that no run follows are put together to one run, by induction on them. -/
theorem foldr_prepend_eq_cons_text {chars : List Char} (nonempty : chars ≠ [])
    (apart : ∀ next ∈ tokens.head?, ¬ next.isText)
    : chars.foldr Token.prepend tokens = .text chars :: tokens := by
  induction chars with
  | nil => exact absurd rfl nonempty
  | cons c chars ih =>
      cases chars with
      | nil =>
          cases tokens with
          | nil => rfl
          | cons token tokens =>
              cases token with
              | text chars => exact absurd rfl (apart _ rfl)
              | operator op => rfl
      | cons d chars =>
          rw [List.foldr_cons, ih (List.cons_ne_nil d chars)]
          rfl

/-- Characters before an operator stay the same tokens, whatever follows the operator. -/
theorem exists_foldr_prepend_operator (chars : List Char) (op : Char)
    : ∃ front, ∀ tokens,
        chars.foldr Token.prepend (.operator op :: tokens) = front ++ tokens := by
  cases chars with
  | nil => exact ⟨[.operator op], fun _ => rfl⟩
  | cons c chars =>
      refine ⟨[.text (c :: chars), .operator op], ?_⟩
      intro tokens
      exact foldr_prepend_eq_cons_text (List.cons_ne_nil c chars) (by simp [isText])

end Token

/-- The tokens of a text are in runs, by induction on how the text splits. -/
theorem Alphabet.inRuns_tokenize (a : Alphabet) (text : List Char)
    : Token.InRuns (a.tokenize text) := by
  fun_induction Alphabet.tokenize a text with
  | case1 => exact .nil
  | case2 c => exact Token.InRuns.nil.prepend c
  | case3 _ _ d _ ih => exact ih.prepend d
  | case4 c _ _ ih =>
      unfold Alphabet.push
      split
      · exact ih.cons_operator c
      · exact ih.prepend c

end Wildcard
