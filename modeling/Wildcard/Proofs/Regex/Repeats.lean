import Wildcard.Regex

/-! Stretches in a row.
A row may always do with fewer copies than it has. It may also have more of them than the text
has characters, since one of so many copies is empty and an empty copy can be repeated in place.
-/

namespace Wildcard.Regex.Repeats

variable {P Q : Bool → Bool → List Char → Prop} {count : Nat} {atStart atEnd : Bool}
variable {text : List Char}

/-- A row of several stretches is one of them before a shorter row. -/
theorem succ_iff
    : Repeats P (count + 1) atStart atEnd text
      ↔ ∃ first rest, text = first ++ rest
          ∧ P atStart (atEnd && rest.isEmpty) first
          ∧ Repeats P count (atStart && first.isEmpty) atEnd rest := by
  refine ⟨?_, ?_⟩
  · intro row
    cases row with
    | more here next => exact ⟨_, _, rfl, here, next⟩
  · intro h
    rcases h with ⟨first, rest, rfl, here, next⟩
    exact .more here next

/-- An empty stretch in front changes neither the text nor the place where it begins. -/
theorem more_nil (here : P atStart (atEnd && text.isEmpty) [])
    (next : Repeats P (count - 1) atStart atEnd text)
    : Repeats P count atStart atEnd text := by
  have row : Repeats P count atStart atEnd ([] ++ text) :=
    .more here (by simpa only [List.isEmpty_nil, Bool.and_true] using next)
  exact row

/-- A row satisfies every smaller count, by induction on the row. -/
theorem mono {fewer : Nat} (row : Repeats P count atStart atEnd text) (hle : fewer ≤ count)
    : Repeats P fewer atStart atEnd text := by
  induction row generalizing fewer with
  | done atStart atEnd =>
      have none : fewer = 0 := Nat.le_zero.mp hle
      exact none ▸ .done atStart atEnd
  | more here _ ih => exact .more here (ih (Nat.sub_le_sub_right hle 1))

/-- A row of more stretches than characters can be made longer, by induction down to its first
empty stretch. -/
theorem grow (row : Repeats P count atStart atEnd text) (hlt : text.length < count)
    : Repeats P (count + 1) atStart atEnd text := by
  induction row with
  | done => exact absurd hlt (Nat.not_lt_zero _)
  | @more count atStart atEnd first rest here next ih =>
      cases first with
      | nil =>
          simp only [List.isEmpty_nil, Bool.and_true] at next
          exact more_nil here (more_nil here next)
      | cons c first =>
          have shorter : rest.length < count - 1 := by
            simp only [List.length_append, List.length_cons] at hlt
            omega
          have longer := ih shorter
          rw [Nat.sub_add_cancel (by omega)] at longer
          exact .more here longer

/-- Any two counts above the length of the text ask for the same. -/
theorem iff_of_length_lt {other : Nat} (hcount : text.length < count)
    (hother : text.length < other)
    : Repeats P count atStart atEnd text ↔ Repeats P other atStart atEnd text := by
  have step : ∀ {least most : Nat}, text.length < least → least ≤ most →
      Repeats P least atStart atEnd text → Repeats P most atStart atEnd text := by
    intro least most hlt hle row
    induction hle with
    | refl => exact row
    | step hle ih => exact ih.grow (Nat.lt_of_lt_of_le hlt hle)
  rcases Nat.le_total count other with hle | hle
  · exact ⟨step hcount hle, fun row => row.mono hle⟩
  · exact ⟨fun row => row.mono hle, step hother hle⟩

/-- The stretches of a row may be judged by another predicate that agrees on texts no longer than
the whole. -/
theorem imp (row : Repeats P count atStart atEnd text)
    (himp : ∀ atStart atEnd stretch, stretch.length ≤ text.length →
      P atStart atEnd stretch → Q atStart atEnd stretch)
    : Repeats Q count atStart atEnd text := by
  induction row with
  | done atStart atEnd => exact .done atStart atEnd
  | more here _ ih =>
      simp only [List.length_append] at himp
      refine .more (himp _ _ _ (Nat.le_add_right _ _) here) (ih ?_)
      intro atStart atEnd stretch hle
      exact himp atStart atEnd stretch (Nat.le_trans hle (Nat.le_add_left _ _))

/-- A row that reads a character reads it in a stretch that is not empty, and the row after that
stretch is under no obligation. -/
theorem cons_iff {c : Char} (hle : count ≤ 1)
    : Repeats P count atStart atEnd (c :: text)
      ↔ ∃ first rest, text = first ++ rest
          ∧ P atStart (atEnd && rest.isEmpty) (c :: first)
          ∧ Repeats P 0 false atEnd rest := by
  refine ⟨?_, ?_⟩
  · intro row
    generalize hwhole : c :: text = whole at row
    induction row with
    | done => exact absurd hwhole nofun
    | @more count atStart atEnd first rest here next ih =>
        cases first with
        | nil =>
            obtain ⟨first, rest, htext, here, next⟩ := ih (by omega) hwhole
            exact ⟨first, rest, htext, by simpa using here, next⟩
        | cons d first =>
            obtain ⟨rfl, rfl⟩ := List.cons.inj hwhole
            simp only [List.isEmpty_cons, Bool.and_false] at next
            exact ⟨first, rest, rfl, here, next.mono (Nat.zero_le _)⟩
  · intro h
    rcases h with ⟨first, rest, rfl, here, next⟩
    have none : count - 1 = 0 := Nat.sub_eq_zero_of_le hle
    have row : Repeats P count atStart atEnd ((c :: first) ++ rest) :=
      .more here (by simpa only [none, List.isEmpty_cons, Bool.and_false] using next)
    exact row

/-- The empty text is a row of any number of empty stretches, or of none. -/
theorem nil_iff
    : Repeats P count atStart atEnd [] ↔ count = 0 ∨ P atStart atEnd [] := by
  refine ⟨?_, ?_⟩
  · intro row
    generalize hnil : ([] : List Char) = whole at row
    cases row with
    | done => exact .inl rfl
    | more here next =>
        obtain ⟨rfl, rfl⟩ := List.append_eq_nil_iff.mp hnil.symm
        exact .inr (by simpa using here)
  · intro h
    rcases h with rfl | here
    · exact .done atStart atEnd
    · induction count with
      | zero => exact .done atStart atEnd
      | succ count ih => exact more_nil (by simpa using here) ih

end Wildcard.Regex.Repeats
