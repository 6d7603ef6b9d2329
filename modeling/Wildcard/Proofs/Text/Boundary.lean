import Wildcard.Proofs.Text.ByteOrder

/-! Places between the characters of a text in UTF-8.
Among the bytes of a character only the first can begin one, so the bytes alone tell where a text
can be cut.
-/

namespace Wildcard.Text

@[simp]
theorem utf8_append (s t : List Char)
    : utf8 (s ++ t) = utf8 s ++ utf8 t :=
  List.flatMap_append

@[simp]
theorem length_utf8 (text : List Char)
    : (utf8 text).length = byteLength text := by
  induction text with
  | nil => rfl
  | cons c text ih =>
      rw [utf8, List.flatMap_cons, List.length_append, String.length_utf8EncodeChar, byteLength]
      exact congrArg (c.utf8Size + ·) ih

theorem utf8_repeated (count : Nat) (text : List Char)
    : utf8 (repeated count text) = (List.replicate count (utf8 text)).flatten := by
  rw [repeated_eq_flatten]
  induction count with
  | zero => rfl
  | succ count ih =>
      rw [List.replicate_succ, List.flatten_cons, utf8_append, ih, List.replicate_succ,
        List.flatten_cons]

/-- Whether a place among bytes is the end or has a byte that a character begins with. -/
def isBoundary (bytes : List UInt8) (offset : Nat) : Bool :=
  match bytes[offset]? with
  | some byte => byte.IsUTF8FirstByte
  | none => offset = bytes.length

theorem isBoundary_append (first bytes : List UInt8) (offset : Nat)
    : isBoundary (first ++ bytes) (first.length + offset) = isBoundary bytes offset := by
  have behind : (first ++ bytes)[first.length + offset]? = bytes[offset]? := by
    rw [List.getElem?_append_right (Nat.le_add_right ..), Nat.add_sub_cancel_left]
  simp [isBoundary, behind]

/-- The places between the characters of a text are those in front of which some of its characters
stand, by induction on the text. -/
theorem isBoundary_utf8_iff {text : List Char} {offset : Nat}
    : isBoundary (utf8 text) offset = true
      ↔ ∃ s t, text = s ++ t ∧ offset = (utf8 s).length := by
  refine ⟨?_, ?_⟩
  · intro boundary
    induction text generalizing offset with
    | nil =>
        have atEnd : offset = 0 := by simpa [isBoundary, utf8] using boundary
        exact ⟨[], [], rfl, atEnd⟩
    | cons c text ih =>
        rcases Nat.lt_or_ge offset (String.utf8EncodeChar c).length with within | behind
        · -- among the bytes of a character only the first one begins it
          have byte : (utf8 (c :: text))[offset]? = some (String.utf8EncodeChar c)[offset] := by
            rw [utf8, List.flatMap_cons, List.getElem?_append_left within,
              List.getElem?_eq_getElem within]
          have atStart : offset = 0 := by simpa [isBoundary, byte] using boundary
          exact ⟨[], c :: text, rfl, atStart⟩
        · obtain ⟨more, rfl⟩ := Nat.exists_eq_add_of_le behind
          rw [utf8, List.flatMap_cons, isBoundary_append] at boundary
          obtain ⟨s, t, rfl, rfl⟩ := ih boundary
          refine ⟨c :: s, t, rfl, ?_⟩
          rw [utf8, utf8, List.flatMap_cons, List.length_append]
  · rintro ⟨s, t, rfl, rfl⟩
    rw [utf8_append, ← Nat.add_zero (utf8 s).length, isBoundary_append]
    cases t with
    | nil => rfl
    | cons c t =>
        have first : 0 < (String.utf8EncodeChar c).length := by
          rw [String.length_utf8EncodeChar]
          exact c.utf8Size_pos
        have byte : (utf8 (c :: t))[0]? = some (String.utf8EncodeChar c)[0] := by
          rw [utf8, List.flatMap_cons, List.getElem?_append_left first,
            List.getElem?_eq_getElem first]
        simp [isBoundary, byte]

end Wildcard.Text
