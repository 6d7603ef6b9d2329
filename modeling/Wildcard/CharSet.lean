/-! Finite sets of characters.
The members are listed once each in code point order, so two sets with the same members
are equal values, which `CharSet.ext_mem` states.
-/

namespace Wildcard

/-- A set of characters, with its members in code point order. -/
structure CharSet where
  chars : List Char
  sorted : chars.Pairwise (· < ·)
  deriving DecidableEq

namespace CharSet

/-- Puts a character in its place in a sorted list, unless it is there. -/
def place (c : Char) : List Char → List Char
  | [] => [c]
  | d :: ds => if c < d then c :: d :: ds else if c = d then d :: ds else d :: place c ds

theorem mem_place (c x : Char) (ds : List Char)
    : x ∈ place c ds ↔ x = c ∨ x ∈ ds := by
  induction ds with
  | nil => simp only [place, List.mem_singleton, List.not_mem_nil, or_false]
  | cons d ds ih =>
      rw [place]
      split
      · simp only [List.mem_cons]
      · split
        · next h => simp only [h, List.mem_cons, or_self_left]
        · simp only [List.mem_cons, ih]
          exact or_left_comm

theorem pairwise_place (c : Char) {ds : List Char} (h : ds.Pairwise (· < ·))
    : (place c ds).Pairwise (· < ·) := by
  induction ds with
  | nil => exact List.pairwise_singleton _ _
  | cons d ds ih =>
      have ⟨hd, hds⟩ := List.pairwise_cons.mp h
      rw [place]
      split
      · next hc =>
          refine List.pairwise_cons.mpr ⟨fun x hx => ?_, h⟩
          rcases List.mem_cons.mp hx with rfl | hx
          · exact hc
          · exact Char.lt_trans hc (hd x hx)
      · next hc =>
          split
          · exact h
          · next hne =>
              refine List.pairwise_cons.mpr ⟨fun x hx => ?_, ih hds⟩
              rcases (mem_place c x ds).mp hx with rfl | hx
              · exact Char.not_le.mp fun hle => hne (Char.le_antisymm hle (Char.not_lt.mp hc))
              · exact hd x hx

def empty : CharSet := ⟨[], List.Pairwise.nil⟩

def insert (s : CharSet) (c : Char) : CharSet := ⟨place c s.chars, pairwise_place c s.sorted⟩

/-- The members of the set together with the given characters. -/
def union (s : CharSet) (cs : List Char) : CharSet := cs.foldl insert s

def ofList (cs : List Char) : CharSet := empty.union cs

def contains (s : CharSet) (c : Char) : Bool := s.chars.contains c

def size (s : CharSet) : Nat := s.chars.length

def isEmpty (s : CharSet) : Bool := s.chars.isEmpty

instance : Membership Char CharSet where
  mem s c := c ∈ s.chars

instance (c : Char) (s : CharSet) : Decidable (c ∈ s) := inferInstanceAs (Decidable (c ∈ s.chars))

@[simp]
theorem contains_iff_mem {s : CharSet} {c : Char}
    : s.contains c = true ↔ c ∈ s :=
  List.contains_iff_mem

@[simp]
theorem mem_insert {s : CharSet} {c x : Char}
    : x ∈ s.insert c ↔ x = c ∨ x ∈ s :=
  mem_place c x s.chars

@[simp]
theorem mem_union {s : CharSet} {cs : List Char} {x : Char}
    : x ∈ s.union cs ↔ x ∈ s ∨ x ∈ cs := by
  induction cs generalizing s with
  | nil => simp only [union, List.foldl_nil, List.not_mem_nil, or_false]
  | cons c cs ih =>
      show x ∈ (s.insert c).union cs ↔ _
      simp only [ih, mem_insert, List.mem_cons]
      exact ⟨fun h => by rcases h with (h | h) | h <;> simp only [h, true_or, or_true],
        fun h => by rcases h with h | h | h <;> simp only [h, true_or, or_true]⟩

@[simp]
theorem mem_ofList {cs : List Char} {x : Char}
    : x ∈ ofList cs ↔ x ∈ cs := by
  rw [ofList, mem_union]
  exact ⟨fun h => h.resolve_left List.not_mem_nil, Or.inr⟩

theorem contains_ofList {cs : List Char} {x : Char}
    : (ofList cs).contains x = true ↔ x ∈ cs :=
  contains_iff_mem.trans mem_ofList

theorem ext_mem {s t : CharSet} (h : ∀ c, c ∈ s ↔ c ∈ t)
    : s = t := by
  obtain ⟨cs, hs⟩ := s
  obtain ⟨ds, ht⟩ := t
  have perm : cs.Perm ds :=
    (List.perm_ext_iff_of_nodup (hs.imp Char.ne_of_lt) (ht.imp Char.ne_of_lt)).mpr h
  have same : cs = ds :=
    perm.eq_of_pairwise (fun a b _ _ hab hba => absurd (Char.lt_trans hab hba) (Char.lt_irrefl a))
      hs ht
  subst same
  rfl

end CharSet

end Wildcard
