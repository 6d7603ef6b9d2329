import Wildcard.Pattern.Bound
import Wildcard.Proofs.Render.Source

/-! Simple patterns.
A pattern is simple if and only if it has no node that varies, and then its bound is put together
from the bounds of its items.
-/

namespace Wildcard

/-- Whether a node of this kind may stand for several texts. -/
def Kind.varies : Kind → Bool
  | .anyChar | .oneOf | .atLeast => true
  | .empty | .literal | .group => false

namespace Pattern

mutual

/-- The kinds of the nodes of a pattern, each node before the nodes below it. -/
def kinds : Pattern → List Kind
  | .group items => .group :: kindsAll items
  | .atLeast body _ => .atLeast :: kinds body
  | leaf => [leaf.kind]

def kindsAll : List Pattern → List Kind
  | [] => []
  | item :: items => kinds item ++ kindsAll items

end

mutual

/-- A pattern is simple if none of its nodes varies, by induction on the pattern. -/
theorem isSimple_iff_find?_kinds (p : Pattern)
    : p.isSimple ↔ p.kinds.find? Kind.varies = none := by
  cases p with
  | empty | literal => exact ⟨fun _ => rfl, fun _ => rfl⟩
  | anyChar | oneOf | atLeast => exact ⟨nofun, nofun⟩
  | group items => exact allSimple_iff_find?_kindsAll items

theorem allSimple_iff_find?_kindsAll (items : List Pattern)
    : allSimple items ↔ (kindsAll items).find? Kind.varies = none := by
  cases items with
  | nil => exact ⟨fun _ => rfl, fun _ => rfl⟩
  | cons item items =>
      rw [allSimple, Bool.and_eq_true, isSimple_iff_find?_kinds item,
        allSimple_iff_find?_kindsAll items, kindsAll, List.find?_append, Option.or_eq_none_iff]

end

/-- A pattern that is not simple has a first node that varies. -/
theorem exists_find?_kinds {p : Pattern} (varies : p.isSimple = false)
    : ∃ kind, p.kinds.find? Kind.varies = some kind := by
  cases hkinds : p.kinds.find? Kind.varies with
  | none =>
      have simple := (isSimple_iff_find?_kinds p).mpr hkinds
      exact absurd (varies.symm.trans simple) nofun
  | some kind => exact ⟨kind, rfl⟩

/-- Behind a simple item, the bound goes on with the bound of the other items. -/
theorem exists_of_boundOfItems_cons {item : Pattern} {items : List Pattern} {bound : List Char}
    (simple : item.isSimple) (h : boundOfItems (item :: items) = .ok bound)
    : ∃ first rest, item.lowerBound = .ok first ∧ boundOfItems items = .ok rest
        ∧ bound = first ++ rest := by
  rw [boundOfItems] at h
  obtain ⟨first, hfirst, h⟩ := exists_of_bind_eq_ok h
  rw [if_pos simple] at h
  obtain ⟨rest, hrest, h⟩ := exists_of_bind_eq_ok h
  cases h
  exact ⟨first, rest, hfirst, hrest, rfl⟩

/-- A relation between patterns and texts, and one between items and texts, that literals bear to
their text and that pass from items to their group. -/
structure RelatesTexts (P : Pattern → List Char → Prop) (Q : List Pattern → List Char → Prop)
    : Prop where
  empty : P .empty []
  literal (text : List Char) : P (.literal text) text
  group {items : List Pattern} {text : List Char} (inside : Q items text) : P (.group items) text
  nil : Q [] []
  cons {item : Pattern} {items : List Pattern} {first rest : List Char} (here : P item first)
    (behind : Q items rest) : Q (item :: items) (first ++ rest)

section

variable {P : Pattern → List Char → Prop} {Q : List Pattern → List Char → Prop}

mutual

/-- A simple pattern bears such a relation to its bound, by induction on the pattern. -/
theorem RelatesTexts.of_isSimple (h : RelatesTexts P Q) (p : Pattern) (simple : p.isSimple)
    {bound : List Char} (hbound : p.lowerBound = .ok bound)
    : P p bound := by
  cases p with
  | empty =>
      cases hbound
      exact h.empty
  | literal =>
      cases hbound
      exact h.literal bound
  | group items => exact h.group (h.of_allSimple items simple hbound)
  | anyChar | oneOf | atLeast => exact absurd simple nofun

theorem RelatesTexts.of_allSimple (h : RelatesTexts P Q) (items : List Pattern)
    (simple : allSimple items) {bound : List Char} (hbound : boundOfItems items = .ok bound)
    : Q items bound := by
  cases items with
  | nil =>
      cases hbound
      exact h.nil
  | cons item items =>
      rw [allSimple, Bool.and_eq_true] at simple
      obtain ⟨first, rest, hfirst, hrest, rfl⟩ := exists_of_boundOfItems_cons simple.1 hbound
      exact h.cons (h.of_isSimple item simple.1 hfirst) (h.of_allSimple items simple.2 hrest)

end

end

/-- A literal in front is a part of the bound. -/
theorem boundOfItems_cons_literal (text : List Char) (items : List Pattern)
    : boundOfItems (.literal text :: items) = (boundOfItems items).map (text ++ ·) := by
  change (boundOfItems items >>= fun rest => .ok (text ++ rest)) = _
  cases boundOfItems items <;> rfl

/-- An item that varies settles the bound, whatever items follow. -/
theorem lowerBound_of_boundOfItems_cons {item : Pattern} {items : List Pattern}
    {bound : List Char} (varies : item.isSimple = false)
    (h : boundOfItems (item :: items) = .ok bound)
    : item.lowerBound = .ok bound := by
  rw [boundOfItems] at h
  obtain ⟨first, hfirst, h⟩ := exists_of_bind_eq_ok h
  rw [varies] at h
  cases h
  exact hfirst

/-- A simple body is repeated in the bound. -/
theorem exists_of_lowerBound_atLeast {body : Pattern} {count : Nat} {bound : List Char}
    (simple : body.isSimple) (h : (Pattern.atLeast body count).lowerBound = .ok bound)
    : ∃ once, body.lowerBound = .ok once ∧ bound = Text.repeated count once := by
  rw [lowerBound, if_pos simple] at h
  obtain ⟨once, honce, h⟩ := exists_of_bind_eq_ok h
  rw [repeatBound] at h
  split at h
  · cases h
    exact ⟨once, honce, rfl⟩
  · exact absurd h nofun

/-- A body that varies counts once in the bound, if it has to be there at all. -/
theorem lowerBound_atLeast_of_varies {body : Pattern} (varies : body.isSimple = false)
    (count : Nat)
    : (Pattern.atLeast body count).lowerBound = if count = 0 then .ok [] else body.lowerBound := by
  rw [lowerBound, varies]
  rfl

@[simp]
theorem isSimple_ofItems (items : List Pattern)
    : (ofItems items).isSimple = allSimple items := by
  match items with
  | [] | _ :: _ :: _ => rfl
  | [item] => rw [ofItems, allSimple, allSimple, Bool.and_true]

@[simp]
theorem lowerBound_ofItems (items : List Pattern)
    : (ofItems items).lowerBound = boundOfItems items := by
  match items with
  | [] | _ :: _ :: _ => rfl
  | [item] =>
      rw [ofItems, boundOfItems]
      cases item.lowerBound with
      | error fault => rfl
      | ok bound =>
          change Except.ok bound = if item.isSimple then .ok (bound ++ []) else .ok bound
          rw [List.append_nil, ite_self]

end Pattern

end Wildcard
