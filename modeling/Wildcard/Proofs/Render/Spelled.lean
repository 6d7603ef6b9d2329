import Wildcard.Proofs.Render.Written
import Wildcard.Sql92
import Wildcard.Unix

/-! The text of a pattern in a wildcard language, without scopes and without limits.
Every pattern has such a text. Rendering gives it unless a repetition on the way is too long, and
fails with the first that is. A repetition is met after the repetitions inside of it, so the lengths
that are checked are those of texts that could be written.
-/

namespace Wildcard

-----------------------------------------------------------------------------------------
-- Checking in turn
-----------------------------------------------------------------------------------------

section

variable {α ε : Type} {met : α → Prop} [DecidablePred met] {fault : α → ε} {demands : List α}

/-- Fails with the first demand that is not met. -/
def checkEach (met : α → Prop) [DecidablePred met] (fault : α → ε) : List α → Except ε Unit
  | [] => .ok ()
  | demand :: demands =>
      if met demand then checkEach met fault demands else .error (fault demand)

theorem checkEach_append (before after : List α)
    : checkEach met fault (before ++ after) = (do
        checkEach met fault before
        checkEach met fault after) := by
  induction before with
  | nil => rfl
  | cons demand before ih =>
      rw [List.cons_append, checkEach, checkEach, ih]
      split <;> rfl

theorem checkEach_eq_ok_iff
    : checkEach met fault demands = .ok () ↔ ∀ demand ∈ demands, met demand := by
  induction demands with
  | nil => exact ⟨fun _ => nofun, fun _ => rfl⟩
  | cons demand demands ih =>
      rw [List.forall_mem_cons, ← ih, checkEach]
      by_cases here : met demand <;> simp [here]

theorem checkEach_eq_error_iff {found : ε}
    : checkEach met fault demands = .error found
      ↔ ∃ before demand after, demands = before ++ demand :: after ∧ (∀ earlier ∈ before, met earlier)
        ∧ ¬ met demand ∧ found = fault demand := by
  refine ⟨?_, ?_⟩
  · intro failed
    induction demands with
    | nil => exact absurd failed nofun
    | cons demand demands ih =>
        rw [checkEach] at failed
        split at failed
        · next here =>
            obtain ⟨before, later, after, rfl, allMet, unmet, hfound⟩ := ih failed
            exact ⟨demand :: before, later, after, rfl, List.forall_mem_cons.mpr ⟨here, allMet⟩,
              unmet, hfound⟩
        · next unmet =>
            cases failed
            exact ⟨[], demand, demands, rfl, nofun, unmet, rfl⟩
  · rintro ⟨before, demand, after, rfl, allMet, unmet, rfl⟩
    rw [checkEach_append, checkEach_eq_ok_iff.mpr allMet]
    exact if_neg unmet

/-- A result that is given once its demands are checked. -/
theorem checkEach_return_eq_ok_iff {β : Type} {result found : β}
    : (do checkEach met fault demands; return result : Except ε β) = .ok found
      ↔ (∀ demand ∈ demands, met demand) ∧ found = result := by
  rw [← @checkEach_eq_ok_iff α ε met _ fault demands]
  cases checkEach met fault demands <;> simp [bind, Except.bind, pure, Except.pure, eq_comm]

theorem checkEach_return_eq_error_iff {β : Type} {result : β} {found : ε}
    : (do checkEach met fault demands; return result : Except ε β) = .error found
      ↔ ∃ before demand after, demands = before ++ demand :: after ∧ (∀ earlier ∈ before, met earlier)
        ∧ ¬ met demand ∧ found = fault demand := by
  rw [← checkEach_eq_error_iff]
  cases checkEach met fault demands <;> simp [bind, Except.bind, pure, Except.pure]

/-- Demands on two texts are checked on the first text and then on the second. -/
theorem checkEach_append_text (before after : List α) (text more : List Char)
    : (do
        checkEach met fault (before ++ after)
        return text ++ more : Except ε (List Char))
      = (do
        let first ← (do checkEach met fault before; return text)
        let rest ← (do checkEach met fault after; return more)
        return first ++ rest) := by
  rw [checkEach_append]
  cases checkEach met fault before with
  | error found => rfl
  | ok _ => cases checkEach met fault after <;> rfl

end

namespace Spelling

variable {sp : Spelling} {escape : Char} {extra : List Char} {p : Pattern}

/-- The escape stands before every operator, before every extra character and before itself. -/
def escaped (sp : Spelling) (escape : Char) (extra text : List Char) : List Char :=
  text.flatMap fun c => if c ∈ sp.operators ∨ c ∈ extra ∨ c = escape then [escape, c] else [c]

mutual

/-- The text of a pattern. -/
def spelled (sp : Spelling) (escape : Char) (extra : List Char) : Pattern → List Char
  | .empty => []
  | .anyChar => [sp.anyChar]
  | .literal text => sp.escaped escape extra text
  | .oneOf candidates =>
      match sp.brackets with
      | none => [sp.anyChar]
      | some (first, last) => first :: sp.escaped escape extra candidates ++ [last]
  | .group items => spelledAll sp escape extra items
  | .atLeast body count =>
      (List.replicate count (spelled sp escape extra body)).flatten ++ [sp.anyString]

def spelledAll (sp : Spelling) (escape : Char) (extra : List Char) : List Pattern → List Char
  | [] => []
  | item :: items => spelled sp escape extra item ++ spelledAll sp escape extra items

end

/-- How many bytes are repeated, and how often. -/
structure Repetition where
  bytes : Nat
  count : Nat

mutual

/-- The repetitions in a pattern, each after those in its body. -/
def repetitions (sp : Spelling) (escape : Char) (extra : List Char) : Pattern → List Repetition
  | .group items => repetitionsAll sp escape extra items
  | .atLeast body count =>
      repetitions sp escape extra body
        ++ [⟨Text.byteLength (spelled sp escape extra body), count⟩]
  | _ => []

def repetitionsAll (sp : Spelling) (escape : Char) (extra : List Char)
    : List Pattern → List Repetition
  | [] => []
  | item :: items => repetitions sp escape extra item ++ repetitionsAll sp escape extra items

end

namespace Repetition

def Fits (r : Repetition) : Prop := r.bytes * r.count ≤ Text.maxBytes

instance (r : Repetition) : Decidable r.Fits := inferInstanceAs (Decidable (_ ≤ _))

/-- The fault of a repetition that is too long. -/
def fault (r : Repetition) : Error := .repetitionTooLong r.bytes r.count

/-- Fails with the first repetition that is too long. -/
def check (repetitions : List Repetition) : Except Error Unit := checkEach Fits fault repetitions

end Repetition

-----------------------------------------------------------------------------------------
-- What is written is the text
-----------------------------------------------------------------------------------------

theorem apply_eq_escaped (sp : Spelling) (escape : Char) (extra text : List Char)
    : (Escaping.ofOperators sp.operators (some escape) extra).apply text
      = sp.escaped escape extra text := by
  have special (c : Char)
      : (Escaping.ofOperators sp.operators (some escape) extra).specials.contains c
        ↔ c ∈ sp.operators ∨ c ∈ extra ∨ c = escape := by
    simp [Escaping.ofOperators, or_assoc]
  simp only [Escaping.apply, Escaping.ofOperators, escaped] at special ⊢
  simp only [special]

/-- A repetition is written if the text of its body, repeated, is not too long. -/
theorem repetition_eq_check (sp : Spelling) (text : List Char) (count : Nat)
    : sp.repetition text count = (do
        Repetition.check [⟨Text.byteLength text, count⟩]
        return (List.replicate count text).flatten ++ [sp.anyString]) := by
  rw [repetition, Text.repeated_eq_flatten]
  by_cases fits : Text.byteLength text * count ≤ Text.maxBytes <;>
    simp [Repetition.check, checkEach, Repetition.Fits, Repetition.fault, Text.fits, fits, bind,
      Except.bind, pure, Except.pure]

mutual

/-- What is written for a pattern is its text, once its repetitions are checked, by induction on the
pattern. -/
theorem written_eq_spelled (sp : Spelling) (escape : Char) (extra : List Char) (p : Pattern)
    : written sp (Escaping.ofOperators sp.operators (some escape) extra) p = (do
        Repetition.check (sp.repetitions escape extra p)
        return sp.spelled escape extra p) := by
  cases p with
  | empty => rfl
  | anyChar => rfl
  | literal text =>
      rw [written, apply_eq_escaped]
      rfl
  | oneOf candidates =>
      rw [written, choice, apply_eq_escaped]
      rfl
  | group items => exact writtenAll_eq_spelledAll sp escape extra items
  | atLeast body count =>
      rw [written, written_eq_spelled sp escape extra body, repetitions, Repetition.check,
        Repetition.check, checkEach_append]
      cases checkEach Repetition.Fits Repetition.fault (sp.repetitions escape extra body) with
      | error fault => rfl
      | ok _ => exact repetition_eq_check sp _ count

theorem writtenAll_eq_spelledAll (sp : Spelling) (escape : Char) (extra : List Char)
    (items : List Pattern)
    : writtenAll sp (Escaping.ofOperators sp.operators (some escape) extra) items = (do
        Repetition.check (sp.repetitionsAll escape extra items)
        return sp.spelledAll escape extra items) := by
  cases items with
  | nil => rfl
  | cons item items =>
      rw [writtenAll, written_eq_spelled sp escape extra item,
        writtenAll_eq_spelledAll sp escape extra items]
      exact (checkEach_append_text ..).symm

end

/-- A pattern is rendered as its text if all of its repetitions fit. Otherwise the first that does
not is the fault, with the bytes of its body's text and its count. -/
structure RendersSpelled (sp : Spelling) (escape : Char) (extra : List Char) (p : Pattern)
    : Prop where
  ok : ∀ text, p.render (sp.renderer escape extra) = .ok text
    ↔ (∀ r ∈ sp.repetitions escape extra p, r.Fits) ∧ text = sp.spelled escape extra p
  error : ∀ fault, p.render (sp.renderer escape extra) = .error fault
    ↔ ∃ before r after, sp.repetitions escape extra p = before ++ r :: after
      ∧ (∀ s ∈ before, s.Fits) ∧ ¬ r.Fits ∧ fault = .repetitionTooLong r.bytes r.count

theorem rendersSpelled (sp : Spelling) (escape : Char) (extra : List Char) (p : Pattern)
    : sp.RendersSpelled escape extra p where
  ok text := by
    rw [render_eq_written, written_eq_spelled]
    exact checkEach_return_eq_ok_iff
  error fault := by
    rw [render_eq_written, written_eq_spelled]
    exact checkEach_return_eq_error_iff

end Spelling

namespace Pattern

/-- Unix wildcards and SQL92 expressions are rendered as the text of their pattern, or not at all.
There is no fault but a repetition that is too long. -/
theorem rendered_iff_spelled (escape : Char) (extra : List Char) (p : Pattern)
    : Unix.spelling.RendersSpelled escape extra p ∧ Sql92.spelling.RendersSpelled escape extra p :=
  ⟨Spelling.rendersSpelled _ escape extra p, Spelling.rendersSpelled _ escape extra p⟩

example
    : let p : Pattern := .group
        [.literal ['%', 'x', '*'], .atLeast (.group [.oneOf [']', '!'], .anyChar]) 2, .empty]
      Unix.spelling.spelled '!' ['x'] p
          = ['%', '!', 'x', '!', '*', '[', '!', ']', '!', '!', ']', '?', '[', '!', ']', '!', '!', ']',
              '?', '*']
        ∧ Sql92.spelling.spelled '!' ['x'] p = ['!', '%', '!', 'x', '*', '_', '_', '_', '_', '%']
        ∧ Unix.spelling.repetitions '!' ['x'] p = [⟨7, 2⟩] :=
  ⟨by decide, by decide, rfl⟩

end Pattern

end Wildcard
