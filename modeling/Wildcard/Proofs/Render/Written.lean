import Wildcard.Proofs.Render.Source
import Wildcard.Render.Spelling

/-! What is written for a pattern in a wildcard language, by recursion.
A scope is closed by what was written since it was opened, so the text of a pattern does not
depend on what stands before it. Writing fails exactly at the first repetition that becomes too
long.
-/

namespace Wildcard

-----------------------------------------------------------------------------------------
-- Where actions end
-----------------------------------------------------------------------------------------

section

variable {ε σ α β : Type}

/-- The state in which an action ends, or the fault with which it fails. -/
def ending (action : EStateM ε σ α) (s : σ) : Except ε σ :=
  match action.run s with
  | .ok _ t => .ok t
  | .error fault _ => .error fault

@[simp]
theorem ending_pure (a : α) (s : σ)
    : ending (pure a : EStateM ε σ α) s = .ok s :=
  rfl

/-- The next action begins where the first has ended. -/
@[simp]
theorem ending_bind (first : EStateM ε σ Unit) (next : Unit → EStateM ε σ β) (s : σ)
    : ending (first >>= next) s = (ending first s).bind (ending (next ())) := by
  rw [ending, ending, EStateM.run_bind]
  cases first.run s <;> rfl

theorem ending_bind_of_ok {first : EStateM ε σ α} {next : α → EStateM ε σ β} {s t : σ} {a : α}
    (h : first.run s = .ok a t)
    : ending (first >>= next) s = ending (next a) t := by
  rw [ending, run_bind_of_ok h, ending]

/-- A rendering ends where the visit of the pattern does, and its result is read off there. -/
theorem render_eq_map_ending {r : Renderer σ ε β} {result : σ → β}
    (hfinish : ∀ s, r.finish.run s = .ok (result s) s) (p : Pattern)
    : p.render r = (ending (p.visit r) r.initial).map result := by
  rw [Pattern.render, Pattern.run, EStateM.run_bind, ending]
  cases (p.visit r).run r.initial with
  | ok _ s =>
      dsimp only
      rw [hfinish]
      rfl
  | error fault s => rfl

end

namespace ScopedText

/-- The same text with one more text behind it. -/
def added (s : ScopedText) (text : List Char) : ScopedText := { s with text := s.text ++ text }

/-- The same text with one more scope. -/
def opened (s : ScopedText) (count : Option Nat) : ScopedText :=
  { s with marks := ⟨s.text.length, count⟩ :: s.marks }

@[simp]
theorem added_nil (s : ScopedText)
    : s.added [] = s := by
  rw [added, List.append_nil]

@[simp]
theorem added_added (s : ScopedText) (text more : List Char)
    : (s.added text).added more = s.added (text ++ more) := by
  rw [added, added, added, List.append_assoc]

@[simp]
theorem ending_write (chars : List Char) (s : ScopedText)
    : ending (write chars) s = .ok (s.added chars) :=
  rfl

@[simp]
theorem ending_openScope (count : Option Nat) (s : ScopedText)
    : ending (openScope count) s = .ok (s.opened count) :=
  rfl

/-- What was written since a scope was opened is left as it is when the scope is closed. -/
@[simp]
theorem ending_closeScope (s : ScopedText) (count : Option Nat) (text : List Char)
    : ending closeScope ((s.opened count).added text) = .ok (s.added text) := by
  simp [ending, opened, added]

/-- What was written since a scope was opened is repeated, if the copies fit. -/
@[simp]
theorem ending_closeRepeated (s : ScopedText) (count : Nat) (text : List Char) (last : Char)
    : ending (closeRepeated last) ((s.opened (some count)).added text)
      = if Text.fits (Text.byteLength text) count then
          .ok (s.added (Text.repeated count text ++ [last]))
        else .error (.repetitionTooLong (Text.byteLength text) count) := by
  cases fits : Text.fits (Text.byteLength text) count <;> simp [ending, opened, added, fits]

end ScopedText

namespace Spelling

variable {α : Type}

-----------------------------------------------------------------------------------------
-- What is written
-----------------------------------------------------------------------------------------

/-- What is written for a choice. -/
def choice (sp : Spelling) (e : Escaping) (candidates : List Char) : List Char :=
  match sp.brackets with
  | none => [sp.anyChar]
  | some (first, last) => first :: e.apply candidates ++ [last]

/-- What is written for a repetition of a body that is already written. -/
def repetition (sp : Spelling) (text : List Char) (count : Nat) : Except Error (List Char) :=
  if Text.fits (Text.byteLength text) count then .ok (Text.repeated count text ++ [sp.anyString])
  else .error (.repetitionTooLong (Text.byteLength text) count)

mutual

/-- What is written for a pattern, or the fault of its first repetition that is too long. -/
def written (sp : Spelling) (e : Escaping) : Pattern → Except Error (List Char)
  | .empty => .ok []
  | .anyChar => .ok [sp.anyChar]
  | .literal text => .ok (e.apply text)
  | .oneOf candidates => .ok (sp.choice e candidates)
  | .group items => writtenAll sp e items
  | .atLeast body count => do sp.repetition (← written sp e body) count

def writtenAll (sp : Spelling) (e : Escaping) : List Pattern → Except Error (List Char)
  | [] => .ok []
  | item :: items => do
      let first ← written sp e item
      let rest ← writtenAll sp e items
      return first ++ rest

end

-----------------------------------------------------------------------------------------
-- Visiting writes
-----------------------------------------------------------------------------------------

/-- The two events of a choice write it, with or without brackets. -/
theorem ending_oneOf (sp : Spelling) (e : Escaping) (candidates : List Char) (s : ScopedText)
    : ending (sp.handle e (.enter .oneOf none (some candidates)) >>= fun _ =>
        sp.handle e (.leave .oneOf)) s
      = .ok (s.added (sp.choice e candidates)) := by
  cases hbrackets : sp.brackets <;> simp [handle, choice, hbrackets, Except.bind]

mutual

/-- Visiting a pattern writes what is written for it, or fails as writing does, by induction on
the pattern. -/
theorem ending_visit {sp : Spelling} {e : Escaping} {r : Renderer ScopedText Error α}
    (hr : r.handle = sp.handle e) (p : Pattern) (s : ScopedText)
    : ending (p.visit r) s = (written sp e p).map s.added := by
  cases p with
  | empty | anyChar | literal =>
      simp [Pattern.visit, hr, written, handle, Except.map]
  | oneOf candidates =>
      rw [Pattern.visit, hr]
      exact ending_oneOf sp e candidates s
  | group items =>
      simp only [Pattern.visit, hr, handle, ending_bind, ScopedText.ending_openScope, Except.bind,
        ending_visitAll hr items, written]
      cases writtenAll sp e items with
      | error fault => rfl
      | ok text => exact ScopedText.ending_closeScope s none text
  | atLeast body count =>
      simp only [Pattern.visit, hr, handle, requireCount_some, pure_bind, ending_bind,
        ScopedText.ending_openScope, Except.bind, ending_visit hr body, written]
      cases written sp e body with
      | error fault => rfl
      | ok text =>
          refine (ScopedText.ending_closeRepeated s count text sp.anyString).trans ?_
          change _ = (sp.repetition text count).map s.added
          rw [repetition]
          split <;> rfl

theorem ending_visitAll {sp : Spelling} {e : Escaping} {r : Renderer ScopedText Error α}
    (hr : r.handle = sp.handle e) (items : List Pattern) (s : ScopedText)
    : ending (Pattern.visitAll r items) s = (writtenAll sp e items).map s.added := by
  cases items with
  | nil => simp [Pattern.visitAll, writtenAll, Except.map]
  | cons item items =>
      rw [Pattern.visitAll, writtenAll, ending_bind, ending_visit hr item]
      cases written sp e item with
      | error fault => rfl
      | ok text =>
          refine (ending_visitAll hr items (s.added text)).trans ?_
          cases writtenAll sp e items with
          | error fault => rfl
          | ok more => exact congrArg Except.ok (ScopedText.added_added s text more)

end

/-- Rendering a pattern gives what is written for it, or fails as writing does. -/
theorem render_eq_written (sp : Spelling) (escape : Char) (extra : List Char) (p : Pattern)
    : p.render (sp.renderer escape extra)
      = written sp (Escaping.ofOperators sp.operators (some escape) extra) p := by
  have visited : ending (p.visit (sp.renderer escape extra)) .empty = _ := ending_visit rfl p .empty
  rw [render_eq_map_ending (fun _ => rfl) p]
  change (ending _ ScopedText.empty).map ScopedText.text = _
  rw [visited]
  cases written sp (Escaping.ofOperators sp.operators (some escape) extra) p <;> rfl

end Spelling

end Wildcard
