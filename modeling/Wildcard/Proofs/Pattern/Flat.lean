import Wildcard.Proofs.Pattern.Matching
import Wildcard.Proofs.Render.Bound
import Wildcard.Proofs.Render.Fixed

/-! What becomes of the patterns that can be read.
A row of flat items has small counts and few levels, so only the room that its expression takes can
stand against a matcher. It is always written in a wildcard language and has a bound, and as a fixed
text it is refused for no other reason than a node that varies.
-/

namespace Wildcard

-----------------------------------------------------------------------------------------
-- Levels of expressions
-----------------------------------------------------------------------------------------

namespace Regex

/-- The tail of a chain is no deeper than the same expression alone. -/
theorem levels_le_levels_none (r : Regex) (chain : Chain)
    : r.levels chain ≤ r.levels .none := by
  cases r with
  | empty | start | stop | one | group | atLeast => exact Nat.le_refl _
  | cat | alt =>
      simp only [levels, reduceCtorEq, if_false]
      split <;> omega

/-- Expressions in a row are one level deeper than the deepest of them, by induction on the row. -/
theorem levels_sequence_le {most : Nat} {rs : List Regex}
    (h : ∀ r ∈ rs, r.levels .none ≤ most) (chain : Chain)
    : (sequence rs).levels chain ≤ most + if chain = .cat then 0 else 1 := by
  match rs with
  | [] => exact Nat.zero_le _
  | [r] =>
      have here := h r List.mem_cons_self
      have alone := levels_le_levels_none r chain
      change r.levels chain ≤ _
      omega
  | r :: next :: rs =>
      have ⟨here, others⟩ := List.forall_mem_cons.mp h
      have behind := levels_sequence_le others .cat
      rw [if_pos rfl] at behind
      change max (r.levels .none) ((sequence (next :: rs)).levels .cat) + _ ≤ _
      omega

end Regex

namespace Expression

theorem levels_classOf_le (candidates : List Char)
    : (classOf candidates).levels ≤ 2 := by
  have flat (cs : List Char) : CharClass.mostLevels (cs.map .single) = 0 := by
    induction cs with
    | nil => rfl
    | cons c cs ih =>
        rw [List.map_cons, CharClass.mostLevels, ih]
        rfl
  cases candidates with
  | nil => decide
  | cons c cs =>
      rw [classOf, CharClass.levels, flat]
      split <;> omega

variable {item : Pattern} {items : List Pattern}

/-- No part of a flat item is deeper than a class. -/
theorem levels_le_of_mem_parts (isFlat : item.IsFlat)
    : ∀ r ∈ parts false item, r.levels .none ≤ 2 := by
  intro r member
  cases isFlat with
  | anyChar | anyString =>
      cases List.mem_singleton.mp member
      decide
  | literal text =>
      obtain ⟨c, -, rfl⟩ := List.mem_map.mp member
      exact Nat.zero_le 2
  | oneOf candidates =>
      cases List.mem_singleton.mp member
      exact levels_classOf_le candidates

/-- So it is with the parts of flat items, by induction on the items. -/
theorem levels_le_of_mem_partsAll (areFlat : ∀ item ∈ items, item.IsFlat)
    : ∀ r ∈ partsAll items, r.levels .none ≤ 2 := by
  induction items with
  | nil => exact nofun
  | cons item items ih =>
      have ⟨isFlat, others⟩ := List.forall_mem_cons.mp areFlat
      rw [partsAll]
      exact List.forall_mem_append.mpr ⟨levels_le_of_mem_parts isFlat, ih others⟩

theorem levels_le_of_mem_parts_ofItems (areFlat : ∀ item ∈ items, item.IsFlat)
    : ∀ r ∈ parts false (.ofItems items), r.levels .none ≤ 4 := by
  match items with
  | [] => exact nofun
  | [item] =>
      intro r member
      have low := levels_le_of_mem_parts (areFlat item List.mem_cons_self) r member
      omega
  | first :: next :: items =>
      intro r member
      cases List.mem_singleton.mp member
      have inside := Regex.levels_sequence_le (levels_le_of_mem_partsAll areFlat) .none
      exact Nat.succ_le_succ inside

/-- The expression of flat items keeps to the limit on nesting. -/
theorem levels_expression_le (areFlat : ∀ item ∈ items, item.IsFlat)
    : (expression (.ofItems items)).levels .none ≤ Regex.maxLevels := by
  have low : ∀ r ∈ .start :: parts false (.ofItems items) ++ [.stop], r.levels .none ≤ 4 := by
    rw [List.cons_append]
    refine List.forall_mem_cons.mpr ⟨Nat.zero_le 4, List.forall_mem_append.mpr ⟨?_, ?_⟩⟩
    · exact levels_le_of_mem_parts_ofItems areFlat
    · exact List.forall_mem_singleton.mpr (Nat.zero_le 4)
  exact Nat.le_trans (Regex.levels_sequence_le low .none) (by decide)

/-- Flat items have no counts that are too large, by induction on the items. -/
theorem allCountsFit_of_isFlat (areFlat : ∀ item ∈ items, item.IsFlat)
    : allCountsFit items := by
  induction items with
  | nil => rfl
  | cons item items ih =>
      have ⟨isFlat, others⟩ := List.forall_mem_cons.mp areFlat
      rw [allCountsFit, ih others, Bool.and_true]
      cases isFlat with
      | anyChar | literal | oneOf => rfl
      | anyString => decide

@[simp]
theorem countsFit_ofItems (items : List Pattern)
    : countsFit (.ofItems items) = allCountsFit items := by
  match items with
  | [] | _ :: _ :: _ => rfl
  | [item] => rw [Pattern.ofItems, allCountsFit, allCountsFit, Bool.and_true]

end Expression

-----------------------------------------------------------------------------------------
-- Rows of flat items
-----------------------------------------------------------------------------------------

namespace Pattern

variable {items : List Pattern}

/-- A pattern spells an expression whose machines do not fit. -/
def TakesTooMuchRoom (p : Pattern) : Prop :=
  ∃ source r, p.render Expression.renderer = .ok source ∧ Regex.ofSource? source = some r
    ∧ (Regex.maxRoom < r.machineRoom .forward ∨ Regex.maxRoom < r.machineRoom .backward)

/-- Flat items have no matcher only if their expression takes too much room. -/
theorem takesTooMuchRoom_of_matcher? (areFlat : ∀ item ∈ items, item.IsFlat) {fault : Error}
    (h : (ofItems items).matcher? = .error fault)
    : fault = .invalidExpression ∧ (ofItems items).TakesTooMuchRoom := by
  have fits : Expression.countsFit (ofItems items) := by
    rw [Expression.countsFit_ofItems]
    exact Expression.allCountsFit_of_isFlat areFlat
  have spelled := Expression.ofSource?_anchored (ofItems items)
  rw [if_pos fits] at spelled
  rw [matcher?_eq, Matcher.ofSource?, spelled] at h
  dsimp only at h
  split at h
  · cases h
  · next beyond =>
      cases h
      refine ⟨rfl, _, _, Expression.render_eq _, spelled, ?_⟩
      have levels := Expression.levels_expression_le areFlat
      simp only [Regex.withinLimits, Bool.and_eq_true, decide_eq_true_eq] at beyond
      omega

/-- Flat items have a bound. -/
theorem exists_lowerBound_ofItems (areFlat : ∀ item ∈ items, item.IsFlat)
    : ∃ bound, (ofItems items).lowerBound = .ok bound := by
  have found : ∃ text, Unix.spelling.writtenAll Expression.escaping items = .ok text :=
    Spelling.exists_writtenAll _ areFlat
  obtain ⟨_, written⟩ := found
  rw [lowerBound_ofItems]
  exact Spelling.exists_boundOfItems_of_writtenAll items written

/-- As a fixed text a pattern is refused for nothing but a node that varies. -/
theorem exists_eq_notSimple {p : Pattern} {escape : Option Char} {extra : List Char}
    {fault : Error} (h : p.render (Fixed.renderer escape extra) = .error fault)
    : ∃ kind, fault = .notSimple kind := by
  cases simple : p.isSimple with
  | true =>
      obtain ⟨bound, hbound, -⟩ := matches_iff_eq_lowerBound p simple
      rw [Fixed.render_of_isSimple simple hbound] at h
      exact absurd h nofun
  | false =>
      obtain ⟨kind, hkind⟩ := exists_find?_kinds simple
      rw [Fixed.render_of_varies hkind] at h
      cases h
      exact ⟨kind, rfl⟩

end Pattern

end Wildcard
