import Wildcard.Proofs.Regex.Marks

/-! Searching a text with marks finds what the expression accepts.
An expression is unrolled to one copy more than the text has characters, which loses nothing,
and it is searched for between two stretches of any text.
-/

namespace Wildcard.Marked

open Regex (Repeats)

/-- Copies written out one after the other accept what a row of as many stretches accepts. -/
theorem accepts_repeated (body : Marked) (count : Nat)
    : (repeated body count).Accepts = Repeats body.Accepts count := by
  fun_induction repeated body count with
  | case1 => rfl
  | case2 => rfl
  | case3 count ih =>
      funext atStart atEnd text
      exact propext (by rw [Accepts, ih, Repeats.succ_iff])

/-- Writing copies out marks nothing. -/
theorem unmarked_repeated (body : Marked) (count : Nat)
    : (repeated body count).unmarked = body.unmarked := by
  fun_induction repeated body count with
  | case1 => rfl
  | case2 => rfl
  | case3 count ih => rw [unmarked, ih, Bool.and_self]

/-- An expression begins without marks, by induction on the expression. -/
theorem unmarked_ofRegex (most : Nat) (r : Regex)
    : (ofRegex most r).unmarked := by
  induction r with
  | empty | start | stop => rfl
  | one set => rfl
  | cat first next ihFirst ihNext => simp only [ofRegex, unmarked, ihFirst, ihNext, Bool.and_self]
  | alt left right ihLeft ihRight => simp only [ofRegex, unmarked, ihLeft, ihRight, Bool.and_self]
  | group captures body ih => exact ih
  | atLeast count body ih => rw [ofRegex, unmarked_repeated, ih]

/-- More copies than a text has characters are never missed, by induction on the expression. -/
theorem accepts_ofRegex {most : Nat} (r : Regex) (atStart atEnd : Bool) {text : List Char}
    (hlt : text.length < most)
    : (ofRegex most r).Accepts atStart atEnd text ↔ r.Accepts atStart atEnd text := by
  induction r generalizing atStart atEnd text with
  | empty | start | stop => exact Iff.rfl
  | one set => exact Iff.rfl
  | cat first next ihFirst ihNext =>
      refine exists_congr fun left => exists_congr fun right => and_congr_right ?_
      intro htext
      have hlength := congrArg List.length htext
      rw [List.length_append] at hlength
      rw [ihFirst _ _ (by omega), ihNext _ _ (by omega)]
  | alt left right ihLeft ihRight => exact or_congr (ihLeft _ _ hlt) (ihRight _ _ hlt)
  | group captures body ih => exact ih _ _ hlt
  | atLeast count body ih =>
      have bodies : Repeats (ofRegex most body).Accepts (min count most) atStart atEnd text
          ↔ Repeats body.Accepts (min count most) atStart atEnd text := by
        refine ⟨?_, ?_⟩
        · intro row
          exact row.imp fun _ _ _ hle => (ih _ _ (Nat.lt_of_le_of_lt hle hlt)).mp
        · intro row
          exact row.imp fun _ _ _ hle => (ih _ _ (Nat.lt_of_le_of_lt hle hlt)).mpr
      rw [ofRegex, accepts_repeated, bodies, Regex.Accepts]
      rcases Nat.le_total count most with hle | hle
      · rw [Nat.min_eq_left hle]
      · rw [Nat.min_eq_right hle]
        exact Repeats.iff_of_length_lt hlt (Nat.lt_of_lt_of_le hlt hle)

/-- Any text is accepted as any text, by induction on it. -/
theorem accepts_anything (atStart atEnd : Bool) (text : List Char)
    : anything.Accepts atStart atEnd text := by
  change Repeats _ 0 atStart atEnd text
  induction text generalizing atStart with
  | nil => exact .done atStart atEnd
  | cons c text ih =>
      exact (Repeats.cons_iff (Nat.zero_le 1)).mpr ⟨[], text, rfl, ⟨c, rfl, rfl⟩, ih false⟩

end Wildcard.Marked

namespace Wildcard.Regex

/-- The search answers for the language of the expression. -/
theorem isFoundIn_iff_finds (r : Regex) (text : List Char)
    : r.isFoundIn text ↔ r.Finds text := by
  have fresh : (Marked.cat .anything
      (.cat (.ofRegex (text.length + 1) r) .anything)).unmarked := by
    simp only [Marked.unmarked, Marked.anything, Marked.unmarked_ofRegex, Bool.not_false,
      Bool.and_self]
  rw [isFoundIn, Marked.accepts_iff fresh]
  simp only [Marked.Accepts, Marked.accepts_anything, true_and, and_true, Bool.true_and]
  refine ⟨?_, ?_⟩
  · intro accepted
    rcases accepted with ⟨before, _, htext, found, after, rfl, accepted⟩
    have hlt : found.length < text.length + 1 := by
      simp only [htext, List.length_append]
      omega
    exact ⟨before, found, after, by simpa only [List.append_assoc] using htext,
      (Marked.accepts_ofRegex r _ _ hlt).mp accepted⟩
  · intro accepted
    rcases accepted with ⟨before, found, after, htext, accepted⟩
    have hlt : found.length < text.length + 1 := by
      simp only [htext, List.length_append]
      omega
    exact ⟨before, found ++ after, by simpa only [List.append_assoc] using htext, found, after,
      rfl, (Marked.accepts_ofRegex r _ _ hlt).mpr accepted⟩

end Wildcard.Regex
