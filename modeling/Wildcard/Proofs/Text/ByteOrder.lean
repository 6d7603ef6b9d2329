import Wildcard.Text

/-! The bytewise order of texts.
Texts are compared as sequences of bytes in UTF-8, which comes to comparing their code points. A
longer encoding begins with a larger byte, and among encodings of one length the leading digits of
the code points decide first.
-/

namespace Wildcard.Text

/-- The bytes of a text in UTF-8. -/
def utf8 (text : List Char) : List UInt8 := text.flatMap String.utf8EncodeChar

/-- A text comes before another when its bytes do, a proper beginning first. -/
def Precedes (s t : List Char) : Prop := List.Lex (· < ·) (utf8 s) (utf8 t)

-----------------------------------------------------------------------------------------
-- Encodings of one length
-----------------------------------------------------------------------------------------

theorem ofNat_lt_ofNat {m n : Nat} (h : m < n) (range : n < 256)
    : UInt8.ofNat m < UInt8.ofNat n := by
  rw [UInt8.lt_iff_toNat_lt, UInt8.toNat_ofNat_of_lt' (Nat.lt_trans h range),
    UInt8.toNat_ofNat_of_lt' range]
  exact h

/-- The first byte that differs decides, whatever stands after bytes of one length. -/
theorem lex_append_of_length_eq {first second : List UInt8}
    (h : List.Lex (· < ·) first second) (same : first.length = second.length)
    (s t : List UInt8)
    : List.Lex (· < ·) (first ++ s) (second ++ t) := by
  induction h with
  | nil => exact absurd same nofun
  | rel here => exact .rel here
  | cons later ih => exact .cons (ih (Nat.succ.inj same))

/-- A code point without so many groups of six bits at its end. -/
def leading : Nat → Nat → Nat
  | 0, code => code
  | count + 1, code => leading count (code / 0x40)

/-- A code point in so many bytes after the first, each with six of its bits. -/
def encoded (mark : Nat) : Nat → Nat → List UInt8
  | 0, code => [UInt8.ofNat (code + mark)]
  | count + 1, code => encoded mark count (code / 0x40) ++ [UInt8.ofNat (code % 0x40 + 0x80)]

theorem length_encoded (mark count code : Nat)
    : (encoded mark count code).length = count + 1 := by
  induction count generalizing code with
  | zero => rfl
  | succ count ih => rw [encoded, List.length_append, ih, List.length_singleton]

/-- The first byte holds the leading bits, by induction on the number of bytes after it. -/
theorem encoded_eq_cons (mark count code : Nat)
    : ∃ rest, encoded mark count code = UInt8.ofNat (leading count code + mark) :: rest := by
  induction count generalizing code with
  | zero => exact ⟨[], rfl⟩
  | succ count ih =>
      obtain ⟨rest, hrest⟩ := ih (code / 0x40)
      refine ⟨rest ++ [UInt8.ofNat (code % 0x40 + 0x80)], ?_⟩
      rw [encoded, hrest]
      rfl

/-- A smaller code point comes first among encodings of one length, by induction on that length. -/
theorem lex_encoded {mark count m n : Nat} (h : m < n) (range : leading count n + mark < 256)
    : List.Lex (· < ·) (encoded mark count m) (encoded mark count n) := by
  induction count generalizing m n with
  | zero => exact .rel (ofNat_lt_ofNat (Nat.add_lt_add_right h mark) range)
  | succ count ih =>
      rw [encoded, encoded]
      rcases Nat.lt_or_ge (m / 0x40) (n / 0x40) with earlier | notEarlier
      · refine lex_append_of_length_eq (ih earlier range) ?_ _ _
        rw [length_encoded, length_encoded]
      · have same : m / 0x40 = n / 0x40 := by omega
        rw [same]
        exact List.append_left_lt (.rel (ofNat_lt_ofNat (by omega) (by omega)))

-----------------------------------------------------------------------------------------
-- Characters
-----------------------------------------------------------------------------------------

/-- How many bytes follow the first byte of a code point. -/
def trailing (code : Nat) : Nat :=
  if code < 0x80 then 0 else if code < 0x800 then 1 else if code < 0x10000 then 2 else 3

/-- What the first byte of an encoding is marked with. -/
def mark : Nat → Nat
  | 0 => 0
  | 1 => 0xc0
  | 2 => 0xe0
  | _ => 0xf0

theorem trailing_cases (code : Nat)
    : (trailing code = 0 ∧ code < 0x80)
      ∨ (trailing code = 1 ∧ 0x80 ≤ code ∧ code < 0x800)
      ∨ (trailing code = 2 ∧ 0x800 ≤ code ∧ code < 0x10000)
      ∨ (trailing code = 3 ∧ 0x10000 ≤ code) := by
  unfold trailing
  split
  · omega
  · split
    · omega
    · split <;> omega

theorem trailing_mono {m n : Nat} (h : m ≤ n)
    : trailing m ≤ trailing n := by
  have hm := trailing_cases m
  have hn := trailing_cases n
  omega

theorem toNat_lt (c : Char)
    : c.toNat < 0x110000 := by
  rcases c.valid with below | ⟨_, below⟩
  · exact Nat.lt_trans below (by decide)
  · exact below

/-- The encoding of a character has as many bytes as its code point needs. -/
theorem utf8EncodeChar_eq_encoded (c : Char)
    : String.utf8EncodeChar c = encoded (mark (trailing c.toNat)) (trailing c.toNat) c.toNat := by
  have range : c.val.toNat < 0x110000 := toNat_lt c
  change String.utf8EncodeChar c
    = encoded (mark (trailing c.val.toNat)) (trailing c.val.toNat) c.val.toNat
  unfold String.utf8EncodeChar
  rcases trailing_cases c.val.toNat with ⟨one, below⟩ | ⟨two, above, below⟩ | ⟨three, above, below⟩
    | ⟨four, above⟩
  · rw [if_pos (by omega), one]
    rfl
  · have first : c.val.toNat / 64 % 0x20 = c.val.toNat / 0x40 := by omega
    rw [if_neg (by omega), if_pos (by omega), two, first]
    rfl
  · have first : c.val.toNat / 4096 % 0x10 = c.val.toNat / 0x40 / 0x40 := by omega
    rw [if_neg (by omega), if_neg (by omega), if_pos (by omega), three, first]
    rfl
  · have first : c.val.toNat / 262144 % 0x08 = c.val.toNat / 0x40 / 0x40 / 0x40 := by omega
    have second : c.val.toNat / 4096 = c.val.toNat / 0x40 / 0x40 := by omega
    rw [if_neg (by omega), if_neg (by omega), if_neg (by omega), four, first, second]
    rfl

/-- The first byte of a code point. -/
def lead (code : Nat) : Nat := leading (trailing code) code + mark (trailing code)

theorem lead_lt_of_trailing_lt {m n : Nat} (h : trailing m < trailing n)
    : lead m < lead n := by
  unfold lead
  rcases trailing_cases m with ⟨hm, _⟩ | ⟨hm, _⟩ | ⟨hm, _⟩ | ⟨hm, _⟩ <;>
    rcases trailing_cases n with ⟨hn, _⟩ | ⟨hn, _⟩ | ⟨hn, _⟩ | ⟨hn, _⟩ <;>
    rw [hm, hn] at h ⊢ <;>
    simp only [mark, leading] <;>
    omega

theorem lead_lt {code : Nat} (h : code < 0x110000)
    : lead code < 256 := by
  unfold lead
  rcases trailing_cases code with ⟨count, _⟩ | ⟨count, _⟩ | ⟨count, _⟩ | ⟨count, _⟩ <;>
    rw [count] <;>
    simp only [mark, leading] <;>
    omega

/-- The bytes of a smaller character come first, whatever stands after them. -/
theorem lex_utf8EncodeChar_of_lt {c d : Char} (h : c < d) (s t : List UInt8)
    : List.Lex (· < ·) (String.utf8EncodeChar c ++ s) (String.utf8EncodeChar d ++ t) := by
  have below : c.toNat < d.toNat := h
  have range := lead_lt (toNat_lt d)
  rw [utf8EncodeChar_eq_encoded, utf8EncodeChar_eq_encoded]
  rcases Nat.lt_or_eq_of_le (trailing_mono (Nat.le_of_lt below)) with shorter | same
  · obtain ⟨_, hc⟩ := encoded_eq_cons (mark (trailing c.toNat)) (trailing c.toNat) c.toNat
    obtain ⟨_, hd⟩ := encoded_eq_cons (mark (trailing d.toNat)) (trailing d.toNat) d.toNat
    rw [hc, hd]
    exact .rel (ofNat_lt_ofNat (lead_lt_of_trailing_lt shorter) range)
  · rw [same]
    refine lex_append_of_length_eq (lex_encoded below range) ?_ s t
    rw [length_encoded, length_encoded]

-----------------------------------------------------------------------------------------
-- Texts
-----------------------------------------------------------------------------------------

/-- An earlier text has earlier bytes, by induction on where the texts part. -/
theorem precedes_of_lex {s t : List Char} (h : List.Lex (· < ·) s t)
    : Precedes s t := by
  unfold Precedes
  induction h with
  | @nil c text =>
      rw [utf8, utf8, List.flatMap_nil, List.flatMap_cons, utf8EncodeChar_eq_encoded]
      obtain ⟨rest, hrest⟩ := encoded_eq_cons (mark (trailing c.toNat)) (trailing c.toNat) c.toNat
      rw [hrest]
      exact .nil
  | rel first =>
      rw [utf8, utf8, List.flatMap_cons, List.flatMap_cons]
      exact lex_utf8EncodeChar_of_lt first _ _
  | cons _ ih =>
      rw [utf8, utf8, List.flatMap_cons, List.flatMap_cons]
      exact List.append_left_lt ih

/-- The bytewise order of texts is the order of their code points. -/
theorem precedes_iff_lex {s t : List Char}
    : Precedes s t ↔ List.Lex (· < ·) s t := by
  refine ⟨?_, precedes_of_lex⟩
  intro before
  refine Classical.byContradiction fun notBefore => ?_
  -- the order of code points is total, and either other case contradicts the order of the bytes
  rcases List.le_iff_lt_or_eq.mp notBefore with after | rfl
  · exact List.lex_asymm UInt8.lt_asymm before (precedes_of_lex after)
  · exact List.lex_irrefl UInt8.lt_irrefl _ before

/-- A text that does not come before another does not come before it when it is continued, by
induction on the other text. -/
theorem not_precedes_append {s t : List Char} (h : ¬ Precedes s t) (more : List Char)
    : ¬ Precedes (s ++ more) t := by
  rw [precedes_iff_lex] at h ⊢
  induction t generalizing s with
  | nil => exact List.not_lex_nil
  | cons d t ih =>
      cases s with
      | nil => exact absurd .nil h
      | cons c s =>
          rw [List.cons_lex_cons_iff] at h
          rw [List.cons_append, List.cons_lex_cons_iff]
          intro before
          rcases before with first | ⟨same, later⟩
          · exact h (.inl first)
          · exact ih (fun before => h (.inr ⟨same, before⟩)) later

/-- A common beginning does not matter, by induction on it. -/
theorem not_precedes_append_left {s t : List Char} (h : ¬ Precedes s t) (start : List Char)
    : ¬ Precedes (start ++ s) (start ++ t) := by
  rw [precedes_iff_lex] at h ⊢
  induction start with
  | nil => exact h
  | cons c start ih =>
      rw [List.cons_append, List.cons_append, List.cons_lex_cons_iff]
      intro before
      rcases before with first | ⟨-, later⟩
      · exact Char.lt_irrefl c first
      · exact ih later

theorem not_precedes_self (text : List Char)
    : ¬ Precedes text text :=
  List.lex_irrefl UInt8.lt_irrefl _

theorem not_precedes_nil (text : List Char)
    : ¬ Precedes text [] :=
  List.not_lex_nil

end Wildcard.Text
