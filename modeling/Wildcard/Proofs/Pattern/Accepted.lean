import Wildcard.Proofs.Pattern.Bound
import Wildcard.Proofs.Pattern.Simple
import Wildcard.Proofs.Sql92.Items
import Wildcard.Proofs.Unix.Items

/-! Checked repetitions and the bound.
A bound repeats a text only for a body that is simple, which is when `atLeast?` looks at the length.
A body that varies is never repeated in a bound, so nothing has to be checked for it. Hence no bound
of a pattern that was put together from checked repetitions repeats a text too often.
-/

namespace Wildcard.Pattern

-----------------------------------------------------------------------------------------
-- One repetition
-----------------------------------------------------------------------------------------

section

variable {body p : Pattern} {times : Int}

theorem atLeast?_of_outOfRange (outOfRange : times < 0 ∨ Text.maxCount < times)
    : body.atLeast? times = .error (.countOutOfRange times) := by
  rw [atLeast?, if_pos outOfRange]
  rfl

theorem atLeast?_of_varies (inRange : 0 ≤ times ∧ times ≤ Text.maxCount)
    (varies : body.isSimple = false)
    : body.atLeast? times = .ok (.atLeast body times.toNat) := by
  rw [atLeast?, if_neg (by omega), varies]
  rfl

/-- For a simple body the length of its bound decides. -/
theorem atLeast?_of_isSimple (inRange : 0 ≤ times ∧ times ≤ Text.maxCount)
    (simple : body.isSimple) {bound : List Char} (h : body.lowerBound = .ok bound)
    : body.atLeast? times
      = if Text.byteLength bound * times.toNat ≤ Text.maxBytes then
          .ok (.atLeast body times.toNat)
        else .error (.repetitionTooLong (Text.byteLength bound) times.toNat) := by
  rw [atLeast?, if_neg (by omega), if_pos simple, h]
  by_cases fits : Text.byteLength bound * times.toNat ≤ Text.maxBytes <;>
    simp [fits, Text.fits, bind, Except.bind, pure, Except.pure, throw, throwThe, MonadExceptOf.throw]

theorem atLeast?_of_fits {count : Nat} (inRange : count ≤ Text.maxCount) (simple : body.isSimple)
    {bound : List Char} (h : body.lowerBound = .ok bound)
    (fits : Text.byteLength bound * count ≤ Text.maxBytes)
    : body.atLeast? count = .ok (.atLeast body count) := by
  rw [atLeast?_of_isSimple ⟨by omega, by omega⟩ simple h, Int.toNat_natCast, if_pos fits]

end

/-- How a repetition is checked: its count has to be in range, and the bound of a simple body must
not become too long. There is no other way to fail. -/
structure ChecksRepetition (body : Pattern) (times : Int) : Prop where
  ok : ∀ p, body.atLeast? times = .ok p
    ↔ (0 ≤ times ∧ times ≤ Text.maxCount)
      ∧ (body.isSimple → ∃ bound, body.lowerBound = .ok bound
          ∧ Text.byteLength bound * times.toNat ≤ Text.maxBytes)
      ∧ p = .atLeast body times.toNat
  error : ∀ fault, body.atLeast? times = .error fault
    ↔ (times < 0 ∨ Text.maxCount < times) ∧ fault = .countOutOfRange times
      ∨ (0 ≤ times ∧ times ≤ Text.maxCount) ∧ body.isSimple
        ∧ ∃ bound, body.lowerBound = .ok bound
          ∧ Text.maxBytes < Text.byteLength bound * times.toNat
          ∧ fault = .repetitionTooLong (Text.byteLength bound) times.toNat

theorem checksRepetition (body : Pattern) (times : Int)
    : body.ChecksRepetition times := by
  by_cases outOfRange : times < 0 ∨ Text.maxCount < times
  · have notInRange : ¬ (0 ≤ times ∧ times ≤ Text.maxCount) := by omega
    constructor <;> intro result <;> rw [atLeast?_of_outOfRange outOfRange]
    · simp only [reduceCtorEq, notInRange, false_and]
    · simp only [Except.error.injEq, outOfRange, true_and, notInRange, false_and, or_false,
        @eq_comm _ result]
  · have inRange : 0 ≤ times ∧ times ≤ Text.maxCount := by omega
    cases simple : body.isSimple with
    | false =>
        constructor <;> intro result <;> rw [atLeast?_of_varies inRange simple]
        · simp only [Except.ok.injEq, inRange, simple, Bool.false_eq_true, false_implies, true_and,
            @eq_comm _ result, and_self]
        · simp only [reduceCtorEq, outOfRange, simple, Bool.false_eq_true, false_and, and_false,
            or_self]
    | true =>
        obtain ⟨bound, hbound, -⟩ := matches_iff_eq_lowerBound body simple
        have found {P : List Char → Prop}
            : (∃ found, body.lowerBound = .ok found ∧ P found) ↔ P bound := by
          simp only [hbound, Except.ok.injEq, exists_eq_left']
        constructor <;> intro result <;> rw [atLeast?_of_isSimple inRange simple hbound, found]
        · by_cases fits : Text.byteLength bound * times.toNat ≤ Text.maxBytes
          · simp only [fits, if_true, Except.ok.injEq, inRange, simple, true_implies, true_and,
              @eq_comm _ result, and_self]
          · simp only [fits, if_false, reduceCtorEq, simple, true_implies, false_and, and_false]
        · by_cases fits : Text.byteLength bound * times.toNat ≤ Text.maxBytes
          · simp only [if_pos fits, reduceCtorEq, outOfRange, Nat.not_lt.mpr fits, false_and,
              and_false, or_self]
          · simp only [if_neg fits, Except.error.injEq, outOfRange, inRange, simple,
              Nat.not_le.mp fits, false_and, true_and, false_or, @eq_comm _ result, and_self]

-----------------------------------------------------------------------------------------
-- Repetition in bounds
-----------------------------------------------------------------------------------------

/-- The bound of a simple body is repeated, unless it becomes too long. -/
theorem lowerBound_atLeast_of_isSimple {body : Pattern} {count : Nat} {bound : List Char}
    (simple : body.isSimple) (h : body.lowerBound = .ok bound)
    : (Pattern.atLeast body count).lowerBound
      = if Text.byteLength bound * count ≤ Text.maxBytes then .ok (Text.repeated count bound)
        else .error .boundTooLong := by
  rw [lowerBound, if_pos simple, h]
  simp only [bind, Except.bind, repeatBound, Text.fits, decide_eq_true_eq]

/-- Items behind an item with a bound count only if that item is simple. -/
theorem boundOfItems_cons_of_ok {item : Pattern} {items : List Pattern} {bound : List Char}
    (h : item.lowerBound = .ok bound)
    : boundOfItems (item :: items)
      = if item.isSimple then (do return bound ++ (← boundOfItems items)) else .ok bound := by
  rw [boundOfItems, h]
  rfl

/-- A text is repeated so many times to find the bound of a pattern. -/
inductive BoundRepeats : Pattern → List Char → Nat → Prop where
  | copies {body : Pattern} {count : Nat} {text : List Char} (simple : body.isSimple)
    (bound : body.lowerBound = .ok text)
    : BoundRepeats (.atLeast body count) text count
  /-- The bound of the body is not asked for if the body varies and need not be there. -/
  | body {body : Pattern} {count times : Nat} {text : List Char}
    (needed : body.isSimple ∨ count ≠ 0) (inside : BoundRepeats body text times)
    : BoundRepeats (.atLeast body count) text times
  | first {item : Pattern} {items : List Pattern} {times : Nat} {text : List Char}
    (here : BoundRepeats item text times)
    : BoundRepeats (.group (item :: items)) text times
  | later {item : Pattern} {items : List Pattern} {times : Nat} {text : List Char}
    (simple : item.isSimple) (behind : BoundRepeats (.group items) text times)
    : BoundRepeats (.group (item :: items)) text times

variable {p : Pattern} {text : List Char} {times : Nat} {fault : Error}

/-- Nothing is repeated for a simple pattern, which has no repetitions. -/
theorem BoundRepeats.not_isSimple (h : BoundRepeats p text times)
    : p.isSimple = false := by
  induction h with
  | copies | body => rfl
  | first _ ih => rw [isSimple, allSimple, ih, Bool.false_and]
  | later simple _ ih =>
      rw [isSimple] at ih
      rw [isSimple, allSimple, simple, ih, Bool.true_and]

/-- A bound fails where a repetition is too long. -/
theorem BoundRepeats.lowerBound_eq_error (h : BoundRepeats p text times)
    (tooLong : Text.maxBytes < Text.byteLength text * times)
    : p.lowerBound = .error .boundTooLong := by
  induction h with
  | copies simple bound =>
      rw [lowerBound_atLeast_of_isSimple simple bound, if_neg (Nat.not_le.mpr tooLong)]
  | @body body count _ _ needed inside ih =>
      have varies := inside.not_isSimple
      have positive : count ≠ 0 := needed.resolve_left (by simp [varies])
      rw [lowerBound_atLeast_of_varies varies, if_neg positive, ih tooLong]
  | first _ ih =>
      rw [lowerBound, boundOfItems, ih tooLong]
      rfl
  | @later item items _ _ simple _ ih =>
      obtain ⟨bound, hbound, -⟩ := matches_iff_eq_lowerBound item simple
      have behind : boundOfItems items = .error .boundTooLong := ih tooLong
      rw [lowerBound, boundOfItems_cons_of_ok hbound, if_pos simple, behind]
      rfl

mutual

/-- There is no other reason for a bound to fail, by induction on the pattern. -/
theorem exists_boundRepeats (p : Pattern) (failed : p.lowerBound = .error fault)
    : fault = .boundTooLong
      ∧ ∃ text times, BoundRepeats p text times ∧ Text.maxBytes < Text.byteLength text * times := by
  cases p with
  | empty | anyChar | literal | oneOf => cases failed
  | group items => exact exists_boundRepeats_group items failed
  | atLeast body count =>
      cases simple : body.isSimple with
      | true =>
          obtain ⟨bound, hbound, -⟩ := matches_iff_eq_lowerBound body simple
          rw [lowerBound_atLeast_of_isSimple simple hbound] at failed
          split at failed
          · cases failed
          · next tooLong =>
              cases failed
              exact ⟨rfl, bound, count, .copies simple hbound, Nat.not_le.mp tooLong⟩
      | false =>
          rw [lowerBound_atLeast_of_varies simple] at failed
          split at failed
          · cases failed
          · next positive =>
              obtain ⟨rfl, text, times, inside, tooLong⟩ := exists_boundRepeats body failed
              exact ⟨rfl, text, times, .body (.inr positive) inside, tooLong⟩

theorem exists_boundRepeats_group (items : List Pattern)
    (failed : boundOfItems items = .error fault)
    : fault = .boundTooLong
      ∧ ∃ text times, BoundRepeats (.group items) text times
        ∧ Text.maxBytes < Text.byteLength text * times := by
  cases items with
  | nil => cases failed
  | cons item items =>
      cases hitem : item.lowerBound with
      | error found =>
          rw [boundOfItems, hitem] at failed
          cases failed
          obtain ⟨rfl, text, times, here, tooLong⟩ := exists_boundRepeats item hitem
          exact ⟨rfl, text, times, .first here, tooLong⟩
      | ok bound =>
          rw [boundOfItems_cons_of_ok hitem] at failed
          split at failed
          · next simple =>
              cases hitems : boundOfItems items with
              | ok rest =>
                  rw [hitems] at failed
                  cases failed
              | error found =>
                  rw [hitems] at failed
                  cases failed
                  obtain ⟨rfl, text, times, behind, tooLong⟩ := exists_boundRepeats_group items hitems
                  exact ⟨rfl, text, times, .later simple behind, tooLong⟩
          · cases failed

end

-----------------------------------------------------------------------------------------
-- Patterns made of checked repetitions
-----------------------------------------------------------------------------------------

/-- A repetition was accepted with its body and its count; there is nothing to accept elsewhere. -/
def isAccepted : Pattern → Bool
  | .atLeast body count => (body.atLeast? count).isOk
  | _ => true

theorem isAccepted_of_atLeast? {body : Pattern} {asked : Int} (h : body.atLeast? asked = .ok p)
    : p.isAccepted := by
  obtain ⟨⟨notNegative, -⟩, -, rfl⟩ := (checksRepetition body asked).ok p |>.mp h
  rw [isAccepted, Int.toNat_of_nonneg notNegative, h]
  rfl

theorem fits_of_isAccepted {body : Pattern} {count : Nat}
    (accepted : (Pattern.atLeast body count).isAccepted) (simple : body.isSimple)
    {bound : List Char} (h : body.lowerBound = .ok bound)
    : Text.byteLength bound * count ≤ Text.maxBytes := by
  rw [isAccepted] at accepted
  cases hcheck : body.atLeast? count with
  | error fault =>
      rw [hcheck] at accepted
      cases accepted
  | ok p =>
      obtain ⟨-, fits, -⟩ := (checksRepetition body count).ok p |>.mp hcheck
      obtain ⟨found, hfound, fits⟩ := fits simple
      cases h.symm.trans hfound
      exact fits

/-- If every repetition was accepted, none in the bound is too long. -/
theorem BoundRepeats.fits (h : BoundRepeats p text times) (accepted : p.everyNode isAccepted)
    : Text.byteLength text * times ≤ Text.maxBytes := by
  induction h with
  | copies simple bound =>
      rw [everyNode, Bool.and_eq_true] at accepted
      exact fits_of_isAccepted accepted.1 simple bound
  | body _ _ ih =>
      rw [everyNode, Bool.and_eq_true] at accepted
      exact ih accepted.2
  | first _ ih =>
      simp only [everyNode, everyNodeOfAll, Bool.and_eq_true] at accepted
      exact ih accepted.2.1
  | later _ _ ih =>
      simp only [everyNode, everyNodeOfAll, Bool.and_eq_true] at accepted
      refine ih ?_
      rw [everyNode, Bool.and_eq_true]
      exact ⟨rfl, accepted.2.2⟩

/-- If every repetition was accepted, there is a bound. -/
theorem exists_lowerBound_of_accepted (accepted : p.everyNode isAccepted)
    : ∃ bound, p.lowerBound = .ok bound := by
  cases hbound : p.lowerBound with
  | ok bound => exact ⟨bound, rfl⟩
  | error fault =>
      obtain ⟨-, text, times, repeated, tooLong⟩ := exists_boundRepeats p hbound
      exact absurd (repeated.fits accepted) (Nat.not_le.mpr tooLong)

/-- The patterns that can be put together without a repetition that was not checked. -/
inductive Composed : Pattern → Prop where
  | empty : Composed .empty
  | anyChar : Composed .anyChar
  | anyString : Composed .anyString
  | literal (text : List Char) : Composed (.literal text)
  | oneOf (candidates : List Char) : Composed (.oneOf candidates)
  | ofItems {items : List Pattern} (h : ∀ item ∈ items, Composed item) : Composed (.ofItems items)
  | group {items : List Pattern} (h : ∀ item ∈ items, Composed item) : Composed (.group items)
  | followedBy {first next : Pattern} (hfirst : Composed first) (hnext : Composed next)
    : Composed (first.followedBy next)
  | atLeast {body p : Pattern} {times : Int} (h : Composed body)
    (accepted : body.atLeast? times = .ok p)
    : Composed p
  | unix (stream : TokenStream) : Composed (Unix.read stream).1
  | sql92 {stream : TokenStream} {p : Pattern} (h : (Sql92.read stream).1 = .ok p) : Composed p

theorem IsFlat.everyNode_isAccepted (h : p.IsFlat)
    : p.everyNode isAccepted := by
  cases h <;> rfl

theorem everyNode_isAccepted_group {items : List Pattern}
    : (Pattern.group items).everyNode isAccepted ↔ ∀ item ∈ items, item.everyNode isAccepted := by
  rw [everyNode, ← everyNodeOfAll_iff]
  exact Iff.rfl

theorem everyNode_isAccepted_ofItems {items : List Pattern}
    (h : ∀ item ∈ items, item.everyNode isAccepted)
    : (ofItems items).everyNode isAccepted := by
  match items with
  | [] => rfl
  | [item] => exact h item List.mem_cons_self
  | _ :: _ :: _ => exact everyNode_isAccepted_group.mpr h

theorem eq_ofItems_of_read {stream : TokenStream} (h : (Sql92.read stream).1 = .ok p)
    : p = ofItems (Sql92.items stream.unread).1 := by
  unfold Sql92.read at h
  split at h
  · exact absurd h nofun
  · next hitems =>
      rw [hitems]
      exact (Except.ok.inj h).symm

/-- However a pattern was composed, every repetition in it was accepted, by induction on the
composition. -/
theorem Composed.everyNode_isAccepted (h : Composed p)
    : p.everyNode isAccepted := by
  induction h with
  | empty | anyChar | anyString | literal | oneOf => rfl
  | ofItems _ ih => exact everyNode_isAccepted_ofItems ih
  | group _ ih => exact everyNode_isAccepted_group.mpr ih
  | followedBy _ _ ihfirst ihnext =>
      refine everyNode_isAccepted_group.mpr ?_
      exact List.forall_mem_cons.mpr ⟨ihfirst, List.forall_mem_singleton.mpr ihnext⟩
  | @atLeast body p times _ accepted ih =>
      have here := isAccepted_of_atLeast? accepted
      obtain ⟨-, -, rfl⟩ := (checksRepetition body times).ok p |>.mp accepted
      rw [everyNode, Bool.and_eq_true]
      exact ⟨here, ih⟩
  | unix stream =>
      exact everyNode_isAccepted_ofItems fun item member =>
        (Unix.isFlat_of_mem_items item member).everyNode_isAccepted
  | sql92 h =>
      rw [eq_ofItems_of_read h]
      exact everyNode_isAccepted_ofItems fun item member =>
        (Sql92.isFlat_of_mem_items item member).everyNode_isAccepted

/-- A repetition is refused for a count that is out of range, and for a count that makes the bound of
a simple body too long, and never otherwise. So a pattern that was composed of checked repetitions
has a bound, and no text that is repeated for it becomes too long. Repeating is the one thing that a
bound fails for here: that the bounds of several items can be too long together is left aside. -/
theorem checked_repetitions_keep_bound
    : (∀ (body : Pattern) (times : Int), body.ChecksRepetition times)
      ∧ (∀ (p : Pattern) (fault : Error), p.lowerBound = .error fault
          ↔ fault = .boundTooLong ∧ ∃ text times, p.BoundRepeats text times
            ∧ Text.maxBytes < Text.byteLength text * times)
      ∧ ∀ p : Pattern, p.Composed →
          (∀ text times, p.BoundRepeats text times →
            Text.byteLength text * times ≤ Text.maxBytes)
          ∧ ∃ bound, p.lowerBound = .ok bound := by
  refine ⟨checksRepetition, ?_, ?_⟩
  · intro p fault
    refine ⟨exists_boundRepeats p, ?_⟩
    rintro ⟨rfl, text, times, repeated, tooLong⟩
    exact repeated.lowerBound_eq_error tooLong
  · intro p composed
    have accepted := composed.everyNode_isAccepted
    exact ⟨fun _ _ repeated => repeated.fits accepted, exists_lowerBound_of_accepted accepted⟩

/-- As many copies of a single byte as fit, behind a choice and inside of a further repetition. -/
theorem checked_repetitions_keep_bound_at_limit
    : let full : Pattern := .atLeast (.literal ['a']) Text.maxBytes
      let p : Pattern := .atLeast (.group [full, .oneOf ['b']]) 3
      (Pattern.literal ['a']).atLeast? Text.maxBytes = .ok full
        ∧ (Pattern.literal ['a']).atLeast? (Text.maxBytes + 1)
          = .error (.repetitionTooLong 1 (Text.maxBytes + 1))
        ∧ p.Composed ∧ p.BoundRepeats ['a'] Text.maxBytes
        ∧ Text.byteLength ['a'] * Text.maxBytes ≤ Text.maxBytes
        ∧ ∃ bound, p.lowerBound = .ok bound := by
  intro full p
  have filled : (Pattern.literal ['a']).atLeast? Text.maxBytes = .ok full :=
    atLeast?_of_fits (by decide) rfl rfl (by decide)
  have overfull : (Pattern.literal ['a']).atLeast? (Text.maxBytes + 1)
      = .error (.repetitionTooLong 1 (Text.maxBytes + 1)) := by
    rw [atLeast?_of_isSimple ⟨by decide, by decide⟩ rfl rfl, if_neg (by decide)]
    rfl
  have accepted : (Pattern.group [full, .oneOf ['b']]).atLeast? 3 = .ok p := rfl
  have composed : p.Composed := by
    refine .atLeast (.group ?_) accepted
    exact List.forall_mem_cons.mpr ⟨.atLeast (.literal _) filled,
      List.forall_mem_singleton.mpr (.oneOf _)⟩
  have repeated : p.BoundRepeats ['a'] Text.maxBytes :=
    .body (.inr nofun) (.first (.copies rfl rfl))
  obtain ⟨-, -, bounded⟩ := checked_repetitions_keep_bound
  obtain ⟨fits, exists_bound⟩ := bounded p composed
  exact ⟨filled, overfull, composed, repeated, fits _ _ repeated, exists_bound⟩

end Wildcard.Pattern
