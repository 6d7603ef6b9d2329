import Wildcard.Proofs.Render.Source
import Wildcard.Render.Expression
import Wildcard.Sql92
import Wildcard.Unix

/-! Events in any order.
A renderer can hear any events, also such as belong to no pattern, and it goes on after a failure in
the state that was left behind. Which scopes are open then can be told from the events alone: every
end takes away the innermost scope, whatever kind it has and whether the end fails or not. An end
without a scope is reported, with the exception of the end of a group in a regular expression.
-/

namespace Wildcard

variable {σ ε α : Type}

-----------------------------------------------------------------------------------------
-- Scripts
-----------------------------------------------------------------------------------------

/-- The state after an action, whether it fails or not. -/
def leftBehind (result : EStateM.Result ε σ α) : σ :=
  match result with
  | .ok _ s | .error _ s => s

@[simp]
theorem leftBehind_ok (a : α) (s : σ)
    : leftBehind (.ok a s : EStateM.Result ε σ α) = s :=
  rfl

@[simp]
theorem leftBehind_error (fault : ε) (s : σ)
    : leftBehind (.error fault s : EStateM.Result ε σ α) = s :=
  rfl

/-- The fault of an action, if it fails. -/
def faultOf (result : EStateM.Result ε σ α) : Option ε :=
  match result with
  | .ok _ _ => none
  | .error fault _ => some fault

@[simp]
theorem faultOf_ok (a : α) (s : σ)
    : faultOf (.ok a s : EStateM.Result ε σ α) = none :=
  rfl

@[simp]
theorem faultOf_error (fault : ε) (s : σ)
    : faultOf (.error fault s : EStateM.Result ε σ α) = some fault :=
  rfl

namespace Renderer

variable {r : Renderer σ ε α}

/-- The state that an event leaves behind. -/
def step (r : Renderer σ ε α) (s : σ) (event : Event) : σ := leftBehind ((r.handle event).run s)

/-- The state after some events, of which any may have failed. -/
def after (r : Renderer σ ε α) (script : List Event) : σ := script.foldl r.step r.initial

/-- The fault of an event in a state. -/
def fault? (r : Renderer σ ε α) (s : σ) (event : Event) : Option ε :=
  faultOf ((r.handle event).run s)

theorem after_append_singleton (script : List Event) (event : Event)
    : r.after (script ++ [event]) = r.step (r.after script) event :=
  List.foldl_append

end Renderer

-----------------------------------------------------------------------------------------
-- Open scopes
-----------------------------------------------------------------------------------------

/-- The number of open scopes after one more event. A choice has a scope only where it is written in
brackets, and a repetition needs its count to open one. -/
def Event.depthAfter (brackets : Bool) (depth : Nat) : Event → Nat
  | .enter .group _ _ => depth + 1
  | .enter .atLeast count _ => if count.isSome then depth + 1 else depth
  | .enter .oneOf _ _ => if brackets then depth + 1 else depth
  | .leave .group | .leave .atLeast => depth - 1
  | .leave .oneOf => if brackets then depth - 1 else depth
  | .enter _ _ _ | .leave _ => depth

/-- The number of scopes that some events leave open. -/
def openScopes (brackets : Bool) (script : List Event) : Nat :=
  script.foldl (Event.depthAfter brackets) 0

namespace Renderer

/-- A measure of the state that goes with the number of open scopes at every event is that number
after all scripts. -/
theorem depth_after {r : Renderer σ ε α} {brackets : Bool} (depth : σ → Nat)
    (initial : depth r.initial = 0)
    (kept : ∀ s event, depth (r.step s event) = event.depthAfter brackets (depth s))
    (script : List Event)
    : depth (r.after script) = openScopes brackets script := by
  rw [after, ← List.foldl_hom depth fun s event => (kept s event).symm, initial]
  rfl

/-- An end of a kind is reported exactly when no scope is open. -/
def ReportsUnopened (r : Renderer σ Error α) (brackets : Bool) (kind : Kind) : Prop :=
  ∀ script, r.fault? (r.after script) (.leave kind) = some .unopenedScope
    ↔ openScopes brackets script = 0

end Renderer

-----------------------------------------------------------------------------------------
-- Wildcard languages
-----------------------------------------------------------------------------------------

namespace ScopedText

/-- Closing takes away the innermost mark. -/
@[simp]
theorem marks_closeScope (s : ScopedText)
    : (leftBehind (closeScope.run s)).marks = s.marks.tail := by
  obtain ⟨text, marks⟩ := s
  cases marks <;> simp

/-- Closing takes away the innermost mark even if it fails. -/
@[simp]
theorem marks_closeRepeated (last : Char) (s : ScopedText)
    : (leftBehind ((closeRepeated last).run s)).marks = s.marks.tail := by
  obtain ⟨text, marks⟩ := s
  cases marks with
  | nil => simp
  | cons mark marks =>
      rw [run_closeRepeated_cons]
      cases mark.count with
      | none => rfl
      | some count =>
          dsimp only
          split <;> rfl

end ScopedText

namespace Spelling

variable (sp : Spelling) (escape : Char) (extra : List Char)

theorem length_marks_step (s : ScopedText) (event : Event)
    : ((sp.renderer escape extra).step s event).marks.length
      = event.depthAfter sp.brackets.isSome s.marks.length := by
  change (leftBehind ((sp.handle _ event).run s)).marks.length = _
  cases event with
  | enter kind count chars =>
      cases kind with
      | empty | anyChar | literal | group => simp [handle, Event.depthAfter]
      | oneOf => cases hbrackets : sp.brackets <;> simp [handle, hbrackets, Event.depthAfter]
      | atLeast => cases count <;> simp [handle, Event.depthAfter]
  | leave kind =>
      cases kind with
      | empty | anyChar | literal => simp [handle, Event.depthAfter]
      | oneOf => cases hbrackets : sp.brackets <;> simp [handle, hbrackets, Event.depthAfter]
      | group | atLeast => simp [handle, Event.depthAfter]

/-- There is a mark for every open scope. -/
theorem length_marks_after (script : List Event)
    : ((sp.renderer escape extra).after script).marks.length
      = openScopes sp.brackets.isSome script :=
  Renderer.depth_after (fun s : ScopedText => s.marks.length) rfl
    (length_marks_step sp escape extra) script

theorem fault?_leave_group (s : ScopedText)
    : (sp.renderer escape extra).fault? s (.leave .group) = some .unopenedScope
      ↔ s.marks.length = 0 := by
  change faultOf (ScopedText.closeScope.run s) = _ ↔ _
  obtain ⟨text, marks⟩ := s
  cases marks <;> simp

theorem fault?_leave_atLeast (s : ScopedText)
    : (sp.renderer escape extra).fault? s (.leave .atLeast) = some .unopenedScope
      ↔ s.marks.length = 0 := by
  change faultOf ((ScopedText.closeRepeated sp.anyString).run s) = _ ↔ _
  obtain ⟨text, marks⟩ := s
  cases marks with
  | nil => simp
  | cons mark marks =>
      rw [ScopedText.run_closeRepeated_cons]
      cases mark.count with
      | none => simp
      | some count =>
          dsimp only
          split <;> simp

theorem reportsUnopened_group
    : (sp.renderer escape extra).ReportsUnopened sp.brackets.isSome .group := by
  intro script
  rw [fault?_leave_group, length_marks_after]

theorem reportsUnopened_atLeast
    : (sp.renderer escape extra).ReportsUnopened sp.brackets.isSome .atLeast := by
  intro script
  rw [fault?_leave_atLeast, length_marks_after]

end Spelling

-----------------------------------------------------------------------------------------
-- Regular expressions
-----------------------------------------------------------------------------------------

namespace Expression

theorem length_scopes_step (s : State) (event : Event)
    : (renderer.step s event).scopes.length = event.depthAfter false s.scopes.length := by
  change (leftBehind ((handle event).run s)).scopes.length = _
  cases event with
  | enter kind count chars =>
      cases kind with
      | anyChar | group => rfl
      | empty =>
          rw [handle, run_bind_of_ok (EStateM.run_get s)]
          cases s.inRepetition <;> rfl
      | literal =>
          rw [handle, run_bind_of_ok (EStateM.run_get s)]
          split <;> rfl
      | oneOf =>
          rw [handle]
          split <;> rfl
      | atLeast => cases count <;> rfl
  | leave kind =>
      obtain ⟨text, scopes⟩ := s
      cases kind with
      | empty | anyChar | literal | oneOf => rfl
      | group => exact List.length_tail
      | atLeast =>
          cases scopes with
          | nil => rfl
          | cons scope scopes => cases scope <;> rfl

/-- There is a scope on the stack for every open scope. -/
theorem length_scopes_after (script : List Event)
    : (renderer.after script).scopes.length = openScopes false script :=
  Renderer.depth_after (fun s : State => s.scopes.length) rfl length_scopes_step script

theorem reportsUnopened_atLeast
    : renderer.ReportsUnopened false .atLeast := by
  intro script
  rw [← length_scopes_after]
  obtain ⟨text, scopes⟩ := renderer.after script
  cases scopes with
  | nil => exact iff_of_true rfl rfl
  | cons scope scopes =>
      cases scope with
      | none => exact iff_of_false nofun nofun
      | some count => exact iff_of_false nofun nofun

end Expression

namespace Renderer

/-- Whatever was heard before, a wildcard language reports the end of a group and of a repetition
exactly when no scope is open, and so does a regular expression with the end of a repetition. The
end of a group is always written into a regular expression, and no fault is reported for it. -/
theorem unopened_scope_reported (escape : Char) (extra : List Char)
    : let unix := Unix.spelling.renderer escape extra
      let sql92 := Sql92.spelling.renderer escape extra
      let regex := Expression.renderer
      unix.ReportsUnopened true .group ∧ unix.ReportsUnopened true .atLeast
        ∧ sql92.ReportsUnopened false .group ∧ sql92.ReportsUnopened false .atLeast
        ∧ regex.ReportsUnopened false .atLeast
        ∧ ∀ script,
          (unix.after script).marks.length = openScopes true script
            ∧ (sql92.after script).marks.length = openScopes false script
            ∧ (regex.after script).scopes.length = openScopes false script
            ∧ regex.fault? (regex.after script) (.leave .group) = none
            ∧ (regex.after (script ++ [.leave .group])).text
              = (regex.after script).text ++ [')'] := by
  intro unix sql92 regex
  refine ⟨Unix.spelling.reportsUnopened_group escape extra,
    Unix.spelling.reportsUnopened_atLeast escape extra,
    Sql92.spelling.reportsUnopened_group escape extra,
    Sql92.spelling.reportsUnopened_atLeast escape extra, Expression.reportsUnopened_atLeast, ?_⟩
  intro script
  refine ⟨Unix.spelling.length_marks_after escape extra script,
    Sql92.spelling.length_marks_after escape extra script,
    Expression.length_scopes_after script, rfl, ?_⟩
  rw [after_append_singleton]
  rfl

/-- Without any scope the end of a repetition is reported, and the end of a group is not. -/
example
    : let regex := Expression.renderer
      regex.fault? (regex.after []) (.leave .atLeast) = some .unopenedScope
        ∧ regex.fault? (regex.after []) (.leave .group) = none
        ∧ (regex.after [.leave .group]).text = ['^', ')'] :=
  ⟨rfl, rfl, rfl⟩

end Renderer

end Wildcard
