/-! Lengths of text and repetition.
Text is a list of characters. Its length is measured in bytes of UTF-8, and no text may be
longer than `maxBytes`.
-/

namespace Wildcard.Text

/-- The longest text, in bytes: the largest signed number of 64 bits. -/
def maxBytes : Nat := 0x7fffffffffffffff

/-- The largest repetition count: the largest unsigned number of 64 bits. -/
def maxCount : Nat := 0xffffffffffffffff

/-- The number of bytes that a text takes in UTF-8. -/
def byteLength : List Char → Nat
  | [] => 0
  | c :: cs => c.utf8Size + byteLength cs

@[simp]
theorem byteLength_append (s t : List Char)
    : byteLength (s ++ t) = byteLength s + byteLength t := by
  induction s with
  | nil => simp only [List.nil_append, byteLength, Nat.zero_add]
  | cons c s ih => simp only [List.cons_append, byteLength, ih, Nat.add_assoc]

/-- Whether a text of so many bytes, repeated so many times, is still a text. -/
def fits (bytes count : Nat) : Bool := bytes * count ≤ maxBytes

theorem fits_of_le {short long count : Nat} (h : short ≤ long) (long_fits : fits long count)
    : fits short count := by
  simp only [fits, decide_eq_true_eq] at long_fits ⊢
  exact Nat.le_trans (Nat.mul_le_mul_right count h) long_fits

/-- A text repeated; an empty text costs nothing, however often it is repeated. -/
def repeated (count : Nat) (text : List Char) : List Char :=
  if text.isEmpty then [] else (List.replicate count text).flatten

theorem repeated_eq_flatten (count : Nat) (text : List Char)
    : repeated count text = (List.replicate count text).flatten := by
  unfold repeated
  split
  · next h => simp only [List.isEmpty_iff.mp h, List.flatten_replicate_nil]
  · rfl

@[simp]
theorem byteLength_repeated (count : Nat) (text : List Char)
    : byteLength (repeated count text) = byteLength text * count := by
  rw [repeated_eq_flatten]
  induction count with
  | zero => rfl
  | succ count ih =>
      rw [List.replicate_succ, List.flatten_cons, byteLength_append, ih, Nat.mul_succ, Nat.add_comm]

end Wildcard.Text
