import Wildcard.Proofs.Render.Items
import Wildcard.Proofs.Sql92.Tokens

/-! The items of an SQL92 expression.
Every token is an item of its own, and none is a choice. Runs are as long as they can be, so they
make normal items.
-/

namespace Wildcard.Sql92

open Pattern (NormalItems)

variable {token : Token} {tokens : List Token} {item : Pattern}

theorem itemizes
    : spelling.Itemizes fun tokens => (items tokens).1 where
  done := rfl
  text _ _ := by rw [items_of_item? rfl]
  anyChar tokens := by
    change (items (.operator '_' :: tokens)).1 = _
    rw [items_of_item? rfl]
  anyString tokens := by
    change (items (.operator '%' :: tokens)).1 = _
    rw [items_of_item? rfl]
  choice _ _ hbrackets := absurd hbrackets nofun

theorem isNotChoice_of_item? (h : item? token = some item)
    : item.isNotChoice := by
  unfold item? at h
  split at h <;> cases h <;> rfl

/-- No item is a choice, by induction on the tokens. -/
theorem isNotChoice_of_mem_items
    : ∀ item ∈ (items tokens).1, item.isNotChoice := by
  induction tokens with
  | nil => exact nofun
  | cons token tokens ih =>
      cases hitem : item? token with
      | none =>
          rw [items, hitem]
          exact List.forall_mem_nil _
      | some item =>
          rw [items_of_item? hitem]
          exact List.forall_mem_cons.mpr ⟨isNotChoice_of_item? hitem, ih⟩

theorem isText_of_item? (h : item? token = some item) (literal : item.isLiteral)
    : token.isText := by
  unfold item? at h
  split at h <;> cases h <;> first | rfl | exact absurd literal nofun

theorem isItem_of_item? (h : item? token = some item) (nonempty : token ≠ .text [])
    : item.IsItem := by
  unfold item? at h
  split at h <;> cases h
  · exact .literal fun empty => nonempty (empty ▸ rfl)
  · exact .anyString
  · exact .anyChar

theorem isFlat_of_item? (h : item? token = some item)
    : item.IsFlat := by
  unfold item? at h
  split at h <;> cases h
  · exact .literal _
  · exact .anyString
  · exact .anyChar

/-- Whatever the tokens are, their items are flat, by induction on the tokens. -/
theorem isFlat_of_mem_items
    : ∀ item ∈ (items tokens).1, item.IsFlat := by
  induction tokens with
  | nil => exact nofun
  | cons token tokens ih =>
      cases hitem : item? token with
      | none =>
          rw [items, hitem]
          exact List.forall_mem_nil _
      | some item =>
          rw [items_of_item? hitem]
          exact List.forall_mem_cons.mpr ⟨isFlat_of_item? hitem, ih⟩

theorem isText_head?_of_mem_head?_items (h : item ∈ (items tokens).1.head?)
    (literal : item.isLiteral)
    : ∃ token ∈ tokens.head?, token.isText := by
  cases tokens with
  | nil => exact absurd h nofun
  | cons token tokens =>
      cases hitem : item? token with
      | none =>
          rw [items, hitem] at h
          exact absurd h (Option.not_mem_none item)
      | some found =>
          rw [items_of_item? hitem] at h
          cases Option.mem_some.mp h
          exact ⟨token, rfl, isText_of_item? hitem literal⟩

/-- Runs are read as normal items, by induction on the tokens. -/
theorem normalItems_items (runs : Token.InRuns tokens)
    : NormalItems (items tokens).1 := by
  induction tokens with
  | nil => exact .nil
  | cons token tokens ih =>
      cases hitem : item? token with
      | none =>
          rw [items, hitem]
          exact .nil
      | some item =>
          rw [items_of_item? hitem]
          have nonempty : token ≠ .text [] :=
            fun empty => runs.nonempty (empty ▸ List.mem_cons_self)
          refine (ih runs.tail).cons (isItem_of_item? hitem nonempty) ?_
          intro literal next member nextLiteral
          obtain ⟨second, hsecond, isText⟩ := isText_head?_of_mem_head?_items member nextLiteral
          exact runs.apart.rel_head? hsecond (isText_of_item? hitem literal) isText

-----------------------------------------------------------------------------------------
-- Wildcards in what is written
-----------------------------------------------------------------------------------------

theorem eq_operator_of_item? {op : Char} (h : item? token = some item)
    (hop : op ∈ spelling.wildcardsIn item)
    : token = .operator op := by
  unfold item? at h
  split at h <;> cases h
  · exact absurd hop List.not_mem_nil
  · exact congrArg Token.operator (List.mem_singleton.mp hop).symm
  · exact congrArg Token.operator (List.mem_singleton.mp hop).symm

/-- Every wildcard that is written for the items of some tokens is an operator among these, by
induction on the tokens. -/
theorem operator_mem_of_mem_wildcardsInAll {op : Char}
    (h : op ∈ spelling.wildcardsInAll (items tokens).1)
    : Token.operator op ∈ tokens := by
  induction tokens with
  | nil => exact absurd h List.not_mem_nil
  | cons token tokens ih =>
      cases hitem : item? token with
      | none =>
          rw [items, hitem] at h
          exact absurd h List.not_mem_nil
      | some item =>
          rw [items_of_item? hitem] at h
          rcases List.mem_append.mp h with here | there
          · rw [eq_operator_of_item? hitem here]
            exact List.mem_cons_self
          · exact List.mem_cons_of_mem token (ih there)

/-- The escape is no wildcard in what is written for an expression that was read with it. -/
theorem escape_not_mem_wildcardsIn {escape : Char} {source : List Char} {p : Pattern}
    (h : parse (some escape) source = .ok p)
    : escape ∉ spelling.wildcardsIn p := by
  rw [parse_eq_ok] at h
  cases h
  rw [Spelling.wildcardsIn_ofItems]
  intro member
  have notEscape := (Alphabet.isOperator_of_mem_tokenize
    (operator_mem_of_mem_wildcardsInAll member)).2
  exact absurd notEscape (by simp [Alphabet.isEscape, alphabet])

end Wildcard.Sql92
