import Wildcard.Proofs.Render.Items
import Wildcard.Proofs.Unix.Tokens

/-! The items of a wildcard.
Runs are as long as they can be, so they make normal items. A quotation is the one thing that can
put literals next to each other, or make an empty one.
-/

namespace Wildcard.Unix

open Pattern (NormalItems)

variable {tokens rest : List Token} {item : Pattern}

theorem itemizes
    : spelling.Itemizes fun tokens => (items tokens).1 where
  done := by rw [items_of_item?_eq_none rfl]
  text _ _ := by rw [items_of_item? rfl]
  anyChar tokens := by
    change (items (.operator '?' :: tokens)).1 = _
    rw [items_of_item? rfl]
  anyString tokens := by
    change (items (.operator '*' :: tokens)).1 = _
    rw [items_of_item? rfl]
  choice first last hbrackets candidates tokens := by
    cases hbrackets
    rw [items_of_item? rfl, enclosed_foldr]

/-- What is left after a closing operator is the end of the tokens, by induction on the tokens. -/
theorem enclosed_suffix (close : Char) (tokens : List Token)
    : (enclosed close tokens).2 <:+ tokens := by
  induction tokens with
  | nil => exact List.suffix_rfl
  | cons token tokens ih =>
      rw [enclosed]
      split
      · exact List.suffix_cons token tokens
      · exact ih.trans (List.suffix_cons token tokens)

theorem suffix_of_item? (h : item? tokens = some (item, rest))
    : rest <:+ tokens := by
  unfold item? at h
  split at h <;> simp only [reduceCtorEq, Option.some.injEq, Prod.mk.injEq] at h
  all_goals obtain ⟨-, rfl⟩ := h
  all_goals first
    | exact List.suffix_cons _ _
    | exact (enclosed_suffix _ _).trans (List.suffix_cons _ _)

/-- Without quotations a literal item is a run. -/
theorem eq_text_of_item? (h : item? tokens = some (item, rest))
    (noQuote : .operator '"' ∉ tokens) (literal : item.isLiteral)
    : ∃ chars, tokens = .text chars :: rest ∧ item = .literal chars := by
  unfold item? at h
  split at h <;> simp only [reduceCtorEq, Option.some.injEq, Prod.mk.injEq] at h
  all_goals obtain ⟨rfl, rfl⟩ := h
  all_goals first
    | exact ⟨_, rfl, rfl⟩
    | exact absurd List.mem_cons_self noQuote
    | exact absurd literal nofun

theorem isItem_of_item? (h : item? tokens = some (item, rest)) (runs : Token.InRuns tokens)
    (noQuote : .operator '"' ∉ tokens)
    : item.IsItem := by
  unfold item? at h
  split at h <;> simp only [reduceCtorEq, Option.some.injEq, Prod.mk.injEq] at h
  all_goals obtain ⟨rfl, rfl⟩ := h
  · exact .literal runs.ne_nil
  · exact .anyString
  · exact .anyChar
  · exact .oneOf _
  · exact absurd List.mem_cons_self noQuote

theorem isFlat_of_item? (h : item? tokens = some (item, rest))
    : item.IsFlat := by
  unfold item? at h
  split at h <;> simp only [reduceCtorEq, Option.some.injEq, Prod.mk.injEq] at h
  all_goals obtain ⟨rfl, -⟩ := h
  · exact .literal _
  · exact .anyString
  · exact .anyChar
  · exact .oneOf _
  · exact .literal _

/-- Whatever the tokens are, their items are flat, by induction on the items. -/
theorem isFlat_of_mem_items
    : ∀ item ∈ (items tokens).1, item.IsFlat := by
  fun_induction items tokens with
  | case1 => exact nofun
  | case2 tokens item rest hitem more unread hrest ih =>
      rw [hrest] at ih
      exact List.forall_mem_cons.mpr ⟨isFlat_of_item? hitem, ih⟩

theorem item?_of_mem_head?_items (h : item ∈ (items tokens).1.head?)
    : ∃ rest, item? tokens = some (item, rest) := by
  cases hitem : item? tokens with
  | none =>
      rw [items_of_item?_eq_none hitem] at h
      exact absurd h nofun
  | some found =>
      rw [items_of_item? hitem] at h
      cases Option.mem_some.mp h
      exact ⟨found.2, rfl⟩

/-- Runs without quotations are read as normal items, by induction on the items. -/
theorem normalItems_items (runs : Token.InRuns tokens) (noQuote : .operator '"' ∉ tokens)
    : NormalItems (items tokens).1 := by
  fun_induction items tokens with
  | case1 => exact .nil
  | case2 tokens item rest hitem more unread hrest ih =>
      have suffix := suffix_of_item? hitem
      have noQuoteAfter : .operator '"' ∉ rest := fun member => noQuote (suffix.subset member)
      have others := ih (runs.of_suffix suffix) noQuoteAfter
      rw [hrest] at others
      refine others.cons (isItem_of_item? hitem runs noQuote) ?_
      intro literal next member nextLiteral
      obtain ⟨chars, rfl, -⟩ := eq_text_of_item? hitem noQuote literal
      have begins : next ∈ (items rest).1.head? := by rwa [hrest]
      obtain ⟨_, hnext⟩ := item?_of_mem_head?_items begins
      obtain ⟨_, rfl, -⟩ := eq_text_of_item? hnext noQuoteAfter nextLiteral
      exact runs.not_isText_head? _ rfl rfl

-----------------------------------------------------------------------------------------
-- Wildcards in what is written
-----------------------------------------------------------------------------------------

theorem operator_mem_of_item? {op : Char} (h : item? tokens = some (item, rest))
    (hop : op ∈ spelling.wildcardsIn item)
    : op = ']' ∨ Token.operator op ∈ tokens := by
  unfold item? at h
  split at h <;> simp only [reduceCtorEq, Option.some.injEq, Prod.mk.injEq] at h
  all_goals obtain ⟨rfl, rfl⟩ := h
  · exact absurd hop List.not_mem_nil
  · cases List.mem_singleton.mp hop
    exact .inr List.mem_cons_self
  · cases List.mem_singleton.mp hop
    exact .inr List.mem_cons_self
  · rcases List.mem_cons.mp hop with rfl | hop
    · exact .inr List.mem_cons_self
    · exact .inl (List.mem_singleton.mp hop)
  · exact absurd hop List.not_mem_nil

/-- Every wildcard that is written for the items of some tokens is an operator among these, but for
the bracket that closes a class, by induction on the items. -/
theorem operator_mem_of_mem_wildcardsInAll {op : Char}
    (h : op ∈ spelling.wildcardsInAll (items tokens).1)
    : op = ']' ∨ Token.operator op ∈ tokens := by
  fun_induction items tokens with
  | case1 => exact absurd h List.not_mem_nil
  | case2 tokens item rest hitem more unread hrest ih =>
      rw [hrest] at ih
      rcases List.mem_append.mp h with here | there
      · exact operator_mem_of_item? hitem here
      · exact (ih there).imp_right fun member => (suffix_of_item? hitem).subset member

/-- The escape is no wildcard in what is written for a wildcard that was read with it, but for the
bracket that closes a class. -/
theorem eq_close_of_escape_mem_wildcardsIn {escape : Char} {source : List Char}
    (h : escape ∈ spelling.wildcardsIn (parse (alphabet (some escape)) source))
    : escape = ']' := by
  have member : escape
      ∈ spelling.wildcardsInAll (items ((alphabet (some escape)).tokenize source)).1 := by
    rwa [← Spelling.wildcardsIn_ofItems]
  refine (operator_mem_of_mem_wildcardsInAll member).resolve_right ?_
  intro operator
  have notEscape := (Alphabet.isOperator_of_mem_tokenize operator).2
  exact absurd notEscape (by simp [Alphabet.isEscape, alphabet])

end Wildcard.Unix
