import Wildcard.Proofs.Token.Scanning
import Wildcard.Proofs.Unix.Items

/-! The grammar of wildcards.
A wildcard is a row of items up to an operator that begins none. At any place of a stream there is
one such row. The reader makes a pattern of it and goes on to the first token behind it.
-/

namespace Wildcard.Unix

variable {close : Char} {tokens taken inside rest : List Token} {item : Pattern}
  {found : List Pattern}

-----------------------------------------------------------------------------------------
-- What is enclosed
-----------------------------------------------------------------------------------------

/-- Tokens that are taken up to the next closing operator, that one included, and those inside. If
nothing closes, all tokens that are left are inside. -/
inductive Encloses (close : Char) : (taken inside rest : List Token) → Prop where
  | closed {inside : List Token} (first : .operator close ∉ inside) (rest : List Token)
    : Encloses close (inside ++ [.operator close]) inside rest
  | unclosed {inside : List Token} (never : .operator close ∉ inside)
    : Encloses close inside inside []

/-- A token in front that does not close is inside as well. -/
theorem Encloses.cons {token : Token} (h : Encloses close taken inside rest)
    (differs : token ≠ .operator close)
    : Encloses close (token :: taken) (token :: inside) rest := by
  cases h with
  | closed first rest => exact .closed (List.not_mem_cons_of_ne_of_not_mem differs.symm first) rest
  | unclosed never => exact .unclosed (List.not_mem_cons_of_ne_of_not_mem differs.symm never)

/-- Tokens that do not close are enclosed together with those after them, by induction on them. -/
theorem enclosed_append (h : .operator close ∉ inside) (tokens : List Token)
    : enclosed close (inside ++ tokens)
      = (inside.flatMap Token.chars ++ (enclosed close tokens).1, (enclosed close tokens).2) := by
  induction inside with
  | nil => rfl
  | cons token inside ih =>
      have differs : token ≠ .operator close := (List.ne_of_not_mem_cons h).symm
      rw [List.cons_append, enclosed, if_neg differs, ih (List.not_mem_of_not_mem_cons h),
        List.flatMap_cons, List.append_assoc]

theorem Encloses.enclosed_eq (h : Encloses close taken inside rest)
    : enclosed close (taken ++ rest) = (inside.flatMap Token.chars, rest) := by
  cases h with
  | closed first rest =>
      rw [List.append_assoc, enclosed_append first, List.singleton_append, enclosed_close,
        List.append_nil]
  | unclosed never => rw [enclosed_append never, enclosed, List.append_nil]

/-- Something is taken whatever the tokens are, by induction on them. -/
theorem exists_encloses (close : Char) (tokens : List Token)
    : ∃ taken inside rest, tokens = taken ++ rest ∧ Encloses close taken inside rest := by
  induction tokens with
  | nil => exact ⟨[], [], [], rfl, .unclosed List.not_mem_nil⟩
  | cons token tokens ih =>
      by_cases closes : token = .operator close
      · subst closes
        exact ⟨[.operator close], [], tokens, rfl, .closed List.not_mem_nil tokens⟩
      · obtain ⟨taken, inside, rest, rfl, encloses⟩ := ih
        exact ⟨token :: taken, token :: inside, rest, rfl, encloses.cons closes⟩

-----------------------------------------------------------------------------------------
-- One item
-----------------------------------------------------------------------------------------

/-- The tokens of an item in front of others, and the item. -/
inductive Item : (taken : List Token) → Pattern → (rest : List Token) → Prop where
  | text (chars : List Char) (rest : List Token) : Item [.text chars] (.literal chars) rest
  | anyString (rest : List Token) : Item [.operator '*'] .anyString rest
  | anyChar (rest : List Token) : Item [.operator '?'] .anyChar rest
  | choice {taken inside rest : List Token} (h : Encloses ']' taken inside rest)
    : Item (.operator '[' :: taken) (.oneOf (inside.flatMap Token.chars)) rest
  | quotation {taken inside rest : List Token} (h : Encloses '"' taken inside rest)
    : Item (.operator '"' :: taken) (.literal (inside.flatMap Token.chars)) rest

/-- No item begins at the end, nor at an operator other than these four. -/
def BeginsNone (tokens : List Token) : Prop :=
  ∀ token ∈ tokens.head?, ∃ op, token = .operator op ∧ op ∉ ['*', '?', '[', '"']

theorem Item.item?_eq (h : Item taken item rest)
    : item? (taken ++ rest) = some (item, rest) := by
  cases h with
  | text | anyString | anyChar => rfl
  | choice h | quotation h => rw [List.cons_append, item?, h.enclosed_eq]

/-- What is read as an item is one. -/
theorem exists_item_of_item? (h : item? tokens = some (item, rest))
    : ∃ taken, tokens = taken ++ rest ∧ Item taken item rest := by
  unfold item? at h
  split at h <;> simp only [reduceCtorEq, Option.some.injEq, Prod.mk.injEq] at h
  all_goals obtain ⟨rfl, rfl⟩ := h
  · exact ⟨_, rfl, .text _ _⟩
  · exact ⟨_, rfl, .anyString _⟩
  · exact ⟨_, rfl, .anyChar _⟩
  · next tokens =>
      obtain ⟨taken, inside, rest, rfl, encloses⟩ := exists_encloses ']' tokens
      rw [encloses.enclosed_eq]
      exact ⟨_, rfl, .choice encloses⟩
  · next tokens =>
      obtain ⟨taken, inside, rest, rfl, encloses⟩ := exists_encloses '"' tokens
      rw [encloses.enclosed_eq]
      exact ⟨_, rfl, .quotation encloses⟩

theorem item?_eq_none_iff
    : item? tokens = none ↔ BeginsNone tokens := by
  unfold item?
  split <;> simp_all [BeginsNone]

-----------------------------------------------------------------------------------------
-- A row of items
-----------------------------------------------------------------------------------------

/-- The tokens of items that follow each other, up to where none begins. -/
inductive Row : (taken : List Token) → List Pattern → (rest : List Token) → Prop where
  | nil {rest : List Token} (stops : BeginsNone rest) : Row [] [] rest
  | cons {front taken rest : List Token} {item : Pattern} {items : List Pattern}
    (first : Item front item (taken ++ rest)) (others : Row taken items rest)
    : Row (front ++ taken) (item :: items) rest

theorem Row.beginsNone (h : Row taken found rest)
    : BeginsNone rest := by
  induction h with
  | nil stops => exact stops
  | cons _ _ ih => exact ih

/-- A row is read to its end, by induction on it. -/
theorem Row.items_eq (h : Row taken found rest)
    : items (taken ++ rest) = (found, rest) := by
  induction h with
  | nil stops => exact items_of_item?_eq_none (item?_eq_none_iff.mpr stops)
  | cons first _ ih => rw [List.append_assoc, items_of_item? first.item?_eq, ih]

/-- What is read is a row, by induction on the items. -/
theorem exists_row (tokens : List Token)
    : ∃ taken, tokens = taken ++ (items tokens).2
        ∧ Row taken (items tokens).1 (items tokens).2 := by
  fun_induction items tokens with
  | case1 tokens hnone => exact ⟨[], rfl, .nil (item?_eq_none_iff.mp hnone)⟩
  | case2 tokens item rest hitem more unread hrest ih =>
      obtain ⟨front, rfl, first⟩ := exists_item_of_item? hitem
      obtain ⟨taken, htaken, others⟩ := ih
      rw [hrest] at htaken others
      refine ⟨front ++ taken, by rw [List.append_assoc, ← htaken], .cons ?_ others⟩
      rwa [← htaken]

/-- From any place of a text on, the reader takes the tokens of a row and no others, makes a pattern
of its items and leaves the stream at the first token behind it. The grammar finds no other row
there, and behind it is the end or an operator that begins no item. -/
theorem read_takes_row (a : Alphabet) (text : List Char) (moves : List Move)
    : let stream := (TokenStream.ofText a text).after moves
      let tokens := (a.tokenize text).drop (moves.countP Move.isForward)
      (∀ p after, read stream = (p, after)
          ↔ ∃ taken found, tokens = taken ++ after.unread ∧ Row taken found after.unread
              ∧ p = .ofItems found)
        ∧ ∃ taken found, taken ++ (read stream).2.unread = tokens
            ∧ Row taken found (read stream).2.unread
            ∧ (read stream).1 = .ofItems found
            ∧ (read stream).2 = stream.after (List.replicate taken.length .advance)
            ∧ BeginsNone (read stream).2.unread
            ∧ (read stream).2.current = (read stream).2.unread.head? := by
  intro stream tokens
  have atPlace : stream.unread = tokens := TokenStream.unread_after _ moves
  have readRow (p : Pattern) (after : TokenStream)
      : read stream = (p, after)
        ↔ ∃ taken found, tokens = taken ++ after.unread ∧ Row taken found after.unread
            ∧ p = .ofItems found := by
    rw [read, atPlace, Prod.mk.injEq]
    refine ⟨?_, ?_⟩
    · rintro ⟨rfl, rfl⟩
      obtain ⟨taken, htaken, row⟩ := exists_row tokens
      exact ⟨taken, _, htaken, row, rfl⟩
    · rintro ⟨taken, found, htaken, row, rfl⟩
      rw [htaken, row.items_eq]
      exact ⟨rfl, rfl⟩
  refine ⟨readRow, ?_⟩
  obtain ⟨taken, found, htaken, row, hp⟩ := (readRow _ _).mp rfl
  exact ⟨taken, found, htaken.symm, row, hp,
    (TokenStream.after_replicate_advance (atPlace.trans htaken)).symm, row.beginsNone, rfl⟩

end Wildcard.Unix
