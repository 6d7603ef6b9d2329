import Wildcard.Text.Lines

/-! What the lines of a text are.
A text is cut at its line feeds. Each line loses the carriage return before its line feed, and what
follows the last line feed is a line as it stands, unless nothing follows it.
-/

namespace Wildcard.Text

/-- A line without the carriage return at its end, if it has one. -/
def withoutReturn (line : List Char) : List Char :=
  if line.getLast? = some '\r' then line.dropLast else line

/-- A text is cut into lines. -/
inductive IsLines : List Char → List (List Char) → Prop where
  | nil : IsLines [] []
  | last {line : List Char} (nonempty : line ≠ []) (unbroken : '\n' ∉ line) : IsLines line [line]
  | ended {line rest : List Char} {lines : List (List Char)} (unbroken : '\n' ∉ line)
    (behind : IsLines rest lines) : IsLines (line ++ '\n' :: rest) (withoutReturn line :: lines)

variable {text line rest : List Char}

/-- Every text can be cut into lines, by induction on the text. -/
theorem exists_isLines (text : List Char)
    : ∃ lines, IsLines text lines := by
  induction text with
  | nil => exact ⟨[], .nil⟩
  | cons c text ih =>
      obtain ⟨lines, h⟩ := ih
      by_cases feed : c = '\n'
      · subst feed
        have cut : IsLines ([] ++ '\n' :: text) ([] :: lines) := .ended List.not_mem_nil h
        exact ⟨_, cut⟩
      · have unbroken {line : List Char} (h : '\n' ∉ line) : '\n' ∉ c :: line :=
          List.not_mem_cons_of_ne_of_not_mem (Ne.symm feed) h
        cases h with
        | nil => exact ⟨_, .last (List.cons_ne_nil c []) (unbroken List.not_mem_nil)⟩
        | last _ here => exact ⟨_, .last (List.cons_ne_nil c _) (unbroken here)⟩
        | ended here behind => exact ⟨_, .ended (unbroken here) behind⟩

/-- A character in front of a line is lost only if it is a carriage return right at the end. -/
theorem withoutReturn_cons (c : Char) (line : List Char)
    : withoutReturn (c :: line)
      = if c = '\r' && line.isEmpty then withoutReturn line else c :: withoutReturn line := by
  cases line with
  | nil => by_cases h : c = '\r' <;> simp [withoutReturn, h]
  | cons d line =>
      rw [withoutReturn, withoutReturn, List.getLast?_cons_cons, List.dropLast_cons_cons]
      split <;> simp

/-- The lines of a text that begins with an unbroken line and its line feed, by induction on that
line. -/
theorem foldr_cons_ended (unbroken : '\n' ∉ line) (rest : List Char)
    : (line ++ '\n' :: rest).foldr LineTail.cons ⟨[], false⟩
      = ⟨withoutReturn line :: lines rest, line.isEmpty⟩ := by
  induction line with
  | nil => rfl
  | cons c line ih =>
      have notFeed : c ≠ '\n' := (List.ne_of_not_mem_cons unbroken).symm
      rw [List.cons_append, List.foldr_cons, ih (List.not_mem_of_not_mem_cons unbroken),
        LineTail.cons, if_neg notFeed, withoutReturn_cons]
      split <;> rfl

/-- The lines of an unbroken text, by induction on the text. -/
theorem foldr_cons_last (unbroken : '\n' ∉ line)
    : line.foldr LineTail.cons ⟨[], false⟩ = ⟨if line.isEmpty then [] else [line], false⟩ := by
  induction line with
  | nil => rfl
  | cons c line ih =>
      have notFeed : c ≠ '\n' := (List.ne_of_not_mem_cons unbroken).symm
      rw [List.foldr_cons, ih (List.not_mem_of_not_mem_cons unbroken), LineTail.cons,
        if_neg notFeed, Bool.and_false]
      cases line <;> rfl

/-- There is no other way to cut a text into lines, by induction on the lines. -/
theorem lines_of_isLines {lines : List (List Char)} (h : IsLines text lines)
    : Text.lines text = lines := by
  induction h with
  | nil => rfl
  | @last line nonempty unbroken =>
      rw [Text.lines, foldr_cons_last unbroken]
      exact if_neg (by simpa using nonempty)
  | @ended line rest lines unbroken _ ih =>
      rw [Text.lines, foldr_cons_ended unbroken, ih]

/-- The lines of a text are what the text is cut into. -/
theorem isLines_iff {lines : List (List Char)}
    : IsLines text lines ↔ lines = Text.lines text := by
  refine ⟨fun h => (lines_of_isLines h).symm, ?_⟩
  rintro rfl
  obtain ⟨lines, h⟩ := exists_isLines text
  exact (lines_of_isLines h).symm ▸ h

end Wildcard.Text
