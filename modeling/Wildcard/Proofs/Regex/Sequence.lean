import Wildcard.Regex

/-! Expressions in a row.
A sequence accepts a text that its expressions accept part by part. Only the outermost parts can
lie at the ends of the text.
-/

namespace Wildcard.Regex

/-- Whether the parts of a stretch are accepted by the expressions of a list, in order. -/
def AcceptsAll : List Regex → Bool → Bool → List Char → Prop
  | [], _, _, text => text = []
  | r :: rs, atStart, atEnd, text =>
      ∃ left right, text = left ++ right
        ∧ r.Accepts atStart (atEnd && right.isEmpty) left
        ∧ AcceptsAll rs (atStart && left.isEmpty) atEnd right

theorem acceptsAll_singleton {r : Regex} {atStart atEnd : Bool} {text : List Char}
    : AcceptsAll [r] atStart atEnd text ↔ r.Accepts atStart atEnd text := by
  refine ⟨?_, ?_⟩
  · intro accepted
    rcases accepted with ⟨left, right, rfl, accepted, rfl⟩
    simpa using accepted
  · intro accepted
    exact ⟨text, [], (List.append_nil text).symm, by simpa using accepted, rfl⟩

/-- A sequence accepts as its expressions do, by induction on them. -/
theorem accepts_sequence {rs : List Regex} {atStart atEnd : Bool} {text : List Char}
    : (sequence rs).Accepts atStart atEnd text ↔ AcceptsAll rs atStart atEnd text := by
  fun_induction sequence rs generalizing atStart atEnd text with
  | case1 => exact Iff.rfl
  | case2 r => exact acceptsAll_singleton.symm
  | case3 r rs _ ih => simp only [Accepts, AcceptsAll, ih]

private theorem isEmpty_append (left right : List Char)
    : (left ++ right).isEmpty = (left.isEmpty && right.isEmpty) := by
  cases left <;> rfl

/-- Expressions in two rows accept in two parts, by induction on the first row. -/
theorem acceptsAll_append {rs ts : List Regex} {atStart atEnd : Bool} {text : List Char}
    : AcceptsAll (rs ++ ts) atStart atEnd text
      ↔ ∃ left right, text = left ++ right
          ∧ AcceptsAll rs atStart (atEnd && right.isEmpty) left
          ∧ AcceptsAll ts (atStart && left.isEmpty) atEnd right := by
  induction rs generalizing atStart text with
  | nil =>
      refine ⟨?_, ?_⟩
      · intro accepted
        exact ⟨[], text, rfl, rfl, by simpa using accepted⟩
      · intro accepted
        rcases accepted with ⟨left, right, rfl, rfl, accepted⟩
        simpa using accepted
  | cons r rs ih =>
      simp only [List.cons_append, AcceptsAll, ih]
      refine ⟨?_, ?_⟩
      · intro accepted
        rcases accepted with ⟨first, _, rfl, here, left, right, rfl, inside, after⟩
        refine ⟨first ++ left, right, (List.append_assoc ..).symm, ⟨first, left, rfl, ?_, inside⟩,
          ?_⟩
        · simpa only [isEmpty_append, Bool.and_assoc, Bool.and_comm right.isEmpty] using here
        · simpa only [isEmpty_append, Bool.and_assoc] using after
      · intro accepted
        rcases accepted with ⟨_, right, rfl, ⟨first, left, rfl, here, inside⟩, after⟩
        refine ⟨first, left ++ right, List.append_assoc .., ?_, left, right, rfl, inside, ?_⟩
        · simpa only [isEmpty_append, Bool.and_assoc, Bool.and_comm right.isEmpty] using here
        · simpa only [isEmpty_append, Bool.and_assoc] using after

/-- An expression between anchors is found exactly if it accepts the whole text. -/
theorem finds_anchored {rs : List Regex} {text : List Char}
    : (sequence (.start :: rs ++ [.stop])).Finds text ↔ AcceptsAll rs true true text := by
  simp only [Finds, accepts_sequence, List.cons_append, AcceptsAll, acceptsAll_append, Accepts]
  refine ⟨?_, ?_⟩
  · intro found
    obtain ⟨before, _, after, rfl, _, _, rfl, ⟨hbefore, rfl⟩, middle, _, rfl, accepted, _, _, rfl,
      ⟨hafter, rfl⟩, rfl⟩ := found
    simp only [List.isEmpty_iff, Bool.and_eq_true] at hbefore hafter
    obtain rfl := hbefore
    obtain ⟨rfl, -⟩ := hafter
    simpa using accepted
  · intro accepted
    exact ⟨[], text, [], by simp, [], text, rfl, ⟨rfl, rfl⟩, text, [], by simp, by simpa using accepted,
      [], [], rfl, ⟨rfl, rfl⟩, rfl⟩

end Wildcard.Regex
