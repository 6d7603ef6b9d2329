import Wildcard.Proofs.Pattern.Accepted
import Wildcard.Proofs.Render.Capacity

/-! Bounds of limited length.
It is checked that the copies in a bound are not too long for a text on their own, but not that
there is room for them behind the bounds of the items in front. Where there is none, a bound is not
found although every repetition was accepted. A bound that is found is the lower bound.
-/

namespace Wildcard.Pattern

-----------------------------------------------------------------------------------------
-- Bounds that are texts
-----------------------------------------------------------------------------------------

/-- A bound, unless it is too long for a text. -/
def within (bound : List Char) : Except Error (List Char) :=
  if Text.byteLength bound ≤ Text.maxBytes then .ok bound else .error .boundTooLong

theorem within_eq_ok_iff {bound found : List Char}
    : within bound = .ok found ↔ found = bound ∧ Text.byteLength bound ≤ Text.maxBytes := by
  by_cases fits : Text.byteLength bound ≤ Text.maxBytes <;> simp [within, fits, eq_comm]

theorem within_of_isOk {bound : List Char} (h : (within bound).isOk)
    : within bound = .ok bound := by
  rw [within] at h ⊢
  split at h
  · next fits => exact if_pos fits
  · cases h

/-- A bound that grows is too long once a part of it is. -/
theorem within_bind {part whole : List Char} {next : List Char → Except Error (List Char)}
    (grows : Text.byteLength part ≤ Text.byteLength whole)
    (h : Text.byteLength part ≤ Text.maxBytes → next part = within whole)
    : (within part).bind next = within whole := by
  by_cases fits : Text.byteLength part ≤ Text.maxBytes
  · rw [within, if_pos fits]
    exact h fits
  · have tooLong : ¬ Text.byteLength whole ≤ Text.maxBytes := by omega
    rw [within, if_neg fits, within, if_neg tooLong]
    rfl

mutual

/-- The lower bound, unless a text on the way to it is too long. -/
def boundWithin : Pattern → Except Error (List Char)
  | .empty | .anyChar => .ok []
  -- what is asked of a literal holds of any that is a text already
  | .literal text => within text
  | .oneOf candidates => within (least? candidates).toList
  | .group items => boundOfItemsWithin [] items
  | .atLeast body count =>
      if body.isSimple then do repeatBound count (← boundWithin body)
      else if count = 0 then .ok []
      else boundWithin body

/-- The bounds of the items behind a bound that was found for the items in front, up to the first
item that is not simple. -/
def boundOfItemsWithin (front : List Char) : List Pattern → Except Error (List Char)
  | [] => .ok front
  | item :: items => do
      let bound ← within (front ++ (← boundWithin item))
      if item.isSimple then boundOfItemsWithin bound items else return bound

end

-----------------------------------------------------------------------------------------
-- What is found is the lower bound
-----------------------------------------------------------------------------------------

theorem byteLength_le_of_repeatBound {count : Nat} {once bound : List Char}
    (h : repeatBound count once = .ok bound)
    : Text.byteLength bound ≤ Text.maxBytes := by
  rw [repeatBound] at h
  split at h
  · next fits =>
      cases h
      rw [Text.byteLength_repeated]
      exact of_decide_eq_true fits
  · cases h

mutual

/-- A bound that is found is the lower bound and fits into a text, by induction on the pattern. -/
theorem lowerBound_of_boundWithin (p : Pattern) {bound : List Char} (h : p.boundWithin = .ok bound)
    : p.lowerBound = .ok bound ∧ Text.byteLength bound ≤ Text.maxBytes := by
  cases p with
  | empty | anyChar =>
      cases h
      exact ⟨rfl, Nat.zero_le _⟩
  | literal | oneOf =>
      obtain ⟨rfl, fits⟩ := within_eq_ok_iff.mp h
      exact ⟨rfl, fits⟩
  | group items =>
      obtain ⟨rest, hrest, rfl, fits⟩ := boundOfItems_of_boundOfItemsWithin items (Nat.zero_le _) h
      exact ⟨hrest, fits⟩
  | atLeast body count =>
      cases simple : body.isSimple with
      | true =>
          rw [boundWithin, if_pos simple] at h
          obtain ⟨once, honce, h⟩ := exists_of_bind_eq_ok h
          rw [lowerBound, if_pos simple, (lowerBound_of_boundWithin body honce).1]
          exact ⟨h, byteLength_le_of_repeatBound h⟩
      | false =>
          rw [boundWithin, simple, if_neg Bool.false_ne_true] at h
          rw [lowerBound_atLeast_of_varies simple]
          split at h
          · next none =>
              cases h
              exact ⟨if_pos none, Nat.zero_le _⟩
          · next needed =>
              rw [if_neg needed]
              exact lowerBound_of_boundWithin body h

theorem boundOfItems_of_boundOfItemsWithin (items : List Pattern) {front bound : List Char}
    (room : Text.byteLength front ≤ Text.maxBytes) (h : boundOfItemsWithin front items = .ok bound)
    : ∃ rest, boundOfItems items = .ok rest ∧ bound = front ++ rest
        ∧ Text.byteLength bound ≤ Text.maxBytes := by
  cases items with
  | nil =>
      cases h
      exact ⟨[], rfl, (List.append_nil front).symm, room⟩
  | cons item items =>
      rw [boundOfItemsWithin] at h
      obtain ⟨next, hnext, h⟩ := exists_of_bind_eq_ok h
      obtain ⟨joined, hjoined, h⟩ := exists_of_bind_eq_ok h
      obtain ⟨rfl, fits⟩ := within_eq_ok_iff.mp hjoined
      rw [boundOfItems_cons_of_ok (lowerBound_of_boundWithin item hnext).1]
      split at h
      · next simple =>
          obtain ⟨rest, hrest, rfl, fits⟩ := boundOfItems_of_boundOfItemsWithin items fits h
          rw [if_pos simple, hrest]
          exact ⟨next ++ rest, rfl, List.append_assoc .., fits⟩
      · next varies =>
          cases h
          exact ⟨next, if_neg varies, rfl, fits⟩

end

-----------------------------------------------------------------------------------------
-- Accepted repetitions
-----------------------------------------------------------------------------------------

/-- A repetition was accepted, for which a bound of its body was found if the body is simple. -/
def isAcceptedWithin (p : Pattern) : Bool :=
  p.isAccepted && match p with
    | .atLeast body _ => !body.isSimple || body.boundWithin.isOk
    | _ => true

mutual

/-- If every repetition was accepted, the lower bound is found whenever it fits into a text, by
induction on the pattern. -/
theorem boundWithin_eq_within (p : Pattern) (accepted : p.everyNode isAcceptedWithin)
    {bound : List Char} (h : p.lowerBound = .ok bound)
    : p.boundWithin = within bound := by
  cases p with
  | empty | anyChar | literal | oneOf =>
      cases h
      rfl
  | group items =>
      rw [everyNode, Bool.and_eq_true] at accepted
      exact boundOfItemsWithin_eq_within items accepted.2 (Nat.zero_le _) h
  | atLeast body count =>
      rw [everyNode, Bool.and_eq_true] at accepted
      obtain ⟨here, inside⟩ := accepted
      rw [isAcceptedWithin, Bool.and_eq_true] at here
      cases simple : body.isSimple with
      | true =>
          obtain ⟨once, honce, rfl⟩ := exists_of_lowerBound_atLeast simple h
          have fits := fits_of_isAccepted here.1 simple honce
          have found := here.2
          simp only [simple, Bool.not_true, Bool.false_or, boundWithin_eq_within body inside honce]
            at found
          have hbody := (boundWithin_eq_within body inside honce).trans (within_of_isOk found)
          rw [boundWithin, if_pos simple, hbody, within, Text.byteLength_repeated, if_pos fits]
          exact if_pos (decide_eq_true fits)
      | false =>
          rw [lowerBound_atLeast_of_varies simple] at h
          rw [boundWithin, simple, if_neg Bool.false_ne_true]
          split at h
          · next none =>
              cases h
              exact if_pos none
          · next needed =>
              rw [if_neg needed]
              exact boundWithin_eq_within body inside h

theorem boundOfItemsWithin_eq_within (items : List Pattern)
    (accepted : everyNodeOfAll isAcceptedWithin items) {front rest : List Char}
    (room : Text.byteLength front ≤ Text.maxBytes) (h : boundOfItems items = .ok rest)
    : boundOfItemsWithin front items = within (front ++ rest) := by
  cases items with
  | nil =>
      cases h
      rw [List.append_nil, within, if_pos room]
      rfl
  | cons item items =>
      rw [everyNodeOfAll, Bool.and_eq_true] at accepted
      cases simple : item.isSimple with
      | true =>
          obtain ⟨next, more, hnext, hmore, rfl⟩ := exists_of_boundOfItems_cons simple h
          rw [boundOfItemsWithin, boundWithin_eq_within item accepted.1 hnext]
          refine within_bind ?_ fun _ => within_bind ?_ fun fits => ?_
          · simp only [Text.byteLength_append]
            omega
          · simp only [Text.byteLength_append]
            omega
          · rw [if_pos simple, boundOfItemsWithin_eq_within items accepted.2 fits hmore,
              List.append_assoc]
      | false =>
          have hnext := lowerBound_of_boundOfItems_cons simple h
          rw [boundOfItemsWithin, boundWithin_eq_within item accepted.1 hnext]
          refine within_bind ?_ fun _ => within_bind (Nat.le_refl _) fun fits => ?_
          · rw [Text.byteLength_append]
            omega
          · rw [simple, within, if_pos fits]
            rfl

end

/-- No text that is written for a pattern and no bound that is found is too long. If a pattern is not
written, this is because of the first demand that is not met. Copies that do not fit are a fault, but
that there is no room for what fits on its own is not reported as one. Likewise the bound of a pattern
whose repetitions were all accepted is found only if it fits. -/
theorem texts_within_limit (escape : Char) (extra : List Char) (p : Pattern)
    : Unix.spelling.WritesWithin escape extra p ∧ Sql92.spelling.WritesWithin escape extra p
      ∧ (∀ bound, p.boundWithin = .ok bound →
          p.lowerBound = .ok bound ∧ Text.byteLength bound ≤ Text.maxBytes)
      ∧ (p.everyNode isAcceptedWithin →
          ∃ bound, p.lowerBound = .ok bound
            ∧ p.boundWithin = if Text.byteLength bound ≤ Text.maxBytes then .ok bound
                else .error .boundTooLong) := by
  refine ⟨Spelling.writesWithin _ escape extra p, Spelling.writesWithin _ escape extra p,
    fun _ => lowerBound_of_boundWithin p, ?_⟩
  intro accepted
  obtain ⟨checkedBefore, -⟩ := (everyNode_and _ _ p).mp accepted
  obtain ⟨bound, hbound⟩ := exists_lowerBound_of_accepted checkedBefore
  exact ⟨bound, hbound, boundWithin_eq_within p accepted hbound⟩

/-- Copies that fill a text leave no room for a letter in front of them, neither in a rendered text
nor in a bound. -/
theorem texts_within_limit_full
    : let full : Pattern := .atLeast (.literal ['a']) Text.maxBytes
      let p : Pattern := .group [.literal ['b'], full]
      (Pattern.literal ['a']).atLeast? Text.maxBytes = .ok full
        ∧ p.render (Unix.spelling.limitedRenderer '\\' []) = .error .noRoom
        ∧ p.render (Sql92.spelling.limitedRenderer '\\' []) = .error .noRoom
        ∧ p.everyNode isAcceptedWithin
        ∧ p.lowerBound = .ok (['b'] ++ Text.repeated Text.maxBytes ['a'])
        ∧ p.boundWithin = .error .boundTooLong := by
  intro full p
  have filled : (Pattern.literal ['a']).atLeast? Text.maxBytes = .ok full :=
    atLeast?_of_fits (by decide) rfl rfl (by decide)
  have accepted : p.everyNode isAcceptedWithin := by
    rw [everyNode, everyNodeOfAll, everyNodeOfAll, everyNode, everyNode, isAcceptedWithin,
      isAcceptedWithin, isAccepted_of_atLeast? filled]
    · rfl
    all_goals nofun
  have hbound : p.lowerBound = .ok (['b'] ++ Text.repeated Text.maxBytes ['a']) := by
    have letter : (literal ['b']).isSimple := rfl
    have fullBound : full.lowerBound = .ok (Text.repeated Text.maxBytes ['a']) := by
      rw [lowerBound_atLeast_of_isSimple rfl rfl, if_pos (by decide)]
    rw [lowerBound, boundOfItems_cons_of_ok rfl, if_pos letter, boundOfItems_cons_of_ok fullBound]
    rfl
  have stopped (sp : Spelling) (written : sp.WritesWithin '\\' [] p)
      (plain : ∀ text ∈ [['a'], ['b']], sp.escaped '\\' [] text = text)
      (operator : Text.byteLength [sp.anyString] = 1)
      : p.render (sp.limitedRenderer '\\' []) = .error .noRoom := by
    have demanded : sp.demands '\\' [] 0 p
        = [.room 1, .room 2, .copies ⟨1, Text.maxBytes⟩] ++ [.room (Text.maxBytes + 2)] := by
      simp only [p, full, Spelling.demands, Spelling.demandsAll, Spelling.byteLength_spelled_atLeast,
        operator]
      simp [Spelling.spelled, plain]
      decide
    exact (written.error _).mpr ⟨_, _, [], demanded, by decide, by decide, rfl⟩
  obtain ⟨unix, sql92, -, bounded⟩ := texts_within_limit '\\' [] p
  obtain ⟨bound, hfound, found⟩ := bounded accepted
  have tooLong : ¬ Text.byteLength (['b'] ++ Text.repeated Text.maxBytes ['a']) ≤ Text.maxBytes := by
    rw [Text.byteLength_append, Text.byteLength_repeated]
    decide
  rw [← Except.ok.inj (hbound.symm.trans hfound), if_neg tooLong] at found
  exact ⟨filled, stopped _ unix (by decide) rfl, stopped _ sql92 (by decide) rfl, accepted, hbound,
    found⟩

end Wildcard.Pattern
