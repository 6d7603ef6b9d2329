import Wildcard.Matcher

/-! The source of a pattern by recursion.
Only the innermost open scope has a say in how a pattern is written: it tells whether the pattern
is the body of a repetition. So the source of a pattern is a function of the pattern and of that
one answer, and writing never fails.
-/

namespace Wildcard

/-- What follows an action that succeeds runs in the state that the action leaves. -/
theorem run_bind_of_ok {ε σ α β : Type} {action : EStateM ε σ α} {next : α → EStateM ε σ β}
    {s t : σ} {a : α} (h : action.run s = .ok a t)
    : (action >>= next).run s = (next a).run t := by
  rw [EStateM.run_bind, h]

theorem run_bind_of_error {ε σ α β : Type} {action : EStateM ε σ α} {next : α → EStateM ε σ β}
    {s t : σ} {fault : ε} (h : action.run s = .error fault t)
    : (action >>= next).run s = .error fault t := by
  rw [EStateM.run_bind, h]

/-- An action after which another succeeds has succeeded itself. -/
theorem exists_of_bind_eq_ok {ε α β : Type} {action : Except ε α} {next : α → Except ε β} {b : β}
    (h : (action >>= next) = .ok b)
    : ∃ a, action = .ok a ∧ next a = .ok b := by
  cases action with
  | error fault => exact absurd h nofun
  | ok a => exact ⟨a, rfl, h⟩

namespace Expression

variable {α : Type}

/-- A choice as a class in brackets. -/
def classSource : List Char → List Char
  | [] => emptyClass ++ [']']
  | c :: cs => '[' :: escaping.apply (c :: cs) ++ [']']

mutual

/-- What is written for a pattern, given whether it is the body of a repetition. -/
def source (repeats : Bool) : Pattern → List Char
  | .empty => if repeats then unit [] else []
  | .anyChar => ['.']
  | .literal text =>
      if repeats && text.length != 1 then unit (escaping.apply text) else escaping.apply text
  | .oneOf candidates => classSource candidates
  | .group items => '(' :: sourceAll items ++ [')']
  | .atLeast body count => source true body ++ quantifier count

def sourceAll : List Pattern → List Char
  | [] => []
  | item :: items => source false item ++ sourceAll items

end

-----------------------------------------------------------------------------------------
-- One event
-----------------------------------------------------------------------------------------

theorem run_enter_empty (s : State)
    : (handle (.enter .empty none none)).run s
      = .ok () { s with text := s.text ++ source s.inRepetition .empty } := by
  rw [handle, run_bind_of_ok (EStateM.run_get s), source]
  split
  · rfl
  · rw [List.append_nil]
    rfl

theorem run_enter_literal (chars : List Char) (s : State)
    : (handle (.enter .literal none (some chars))).run s
      = .ok () { s with text := s.text ++ source s.inRepetition (.literal chars) } := by
  rw [handle, run_bind_of_ok (EStateM.run_get s), source]
  dsimp only [Option.getD_some]
  split <;> rfl

/-- The two events of a choice write its class. -/
theorem run_enter_leave_oneOf (candidates : List Char) (s : State)
    : (handle (.enter .oneOf none (some candidates)) >>= fun _ => handle (.leave .oneOf)).run s
      = .ok () { s with text := s.text ++ classSource candidates } := by
  cases candidates with
  | nil =>
      rw [classSource, ← List.append_assoc]
      rfl
  | cons c cs =>
      rw [classSource, ← List.append_assoc]
      rfl

theorem run_enter_group (s : State)
    : (handle (.enter .group none none)).run s = .ok () ⟨s.text ++ ['('], none :: s.scopes⟩ :=
  rfl

theorem run_leave_group (text : List Char) (scopes : List (Option Nat))
    : (handle (.leave .group)).run ⟨text, none :: scopes⟩ = .ok () ⟨text ++ [')'], scopes⟩ :=
  rfl

theorem run_enter_atLeast (count : Nat) (s : State)
    : (handle (.enter .atLeast (some count) none)).run s
      = .ok () ⟨s.text, some count :: s.scopes⟩ :=
  rfl

theorem run_leave_atLeast (text : List Char) (count : Nat) (scopes : List (Option Nat))
    : (handle (.leave .atLeast)).run ⟨text, some count :: scopes⟩
      = .ok () ⟨text ++ quantifier count, scopes⟩ :=
  rfl

-----------------------------------------------------------------------------------------
-- A whole pattern
-----------------------------------------------------------------------------------------

mutual

/-- Visiting a pattern writes its source and leaves the scopes as they were, by induction on the
pattern. -/
theorem run_visit {r : Renderer State Error α} (hr : r.handle = handle) (p : Pattern) (s : State)
    : (p.visit r).run s = .ok () { s with text := s.text ++ source s.inRepetition p } := by
  cases p with
  | empty =>
      rw [Pattern.visit, hr, run_bind_of_ok (run_enter_empty s)]
      rfl
  | anyChar =>
      rw [Pattern.visit, hr]
      rfl
  | literal chars =>
      rw [Pattern.visit, hr, run_bind_of_ok (run_enter_literal chars s)]
      rfl
  | oneOf candidates =>
      rw [Pattern.visit, hr]
      exact run_enter_leave_oneOf candidates s
  | group items =>
      rw [Pattern.visit, hr, run_bind_of_ok (run_enter_group s),
        run_bind_of_ok (run_visitAll hr items _ rfl), run_leave_group]
      simp only [source, List.append_assoc, List.cons_append, List.nil_append]
  | atLeast body count =>
      rw [Pattern.visit, hr, run_bind_of_ok (run_enter_atLeast count s),
        run_bind_of_ok (run_visit hr body _), run_leave_atLeast]
      simp only [source, State.inRepetition, List.append_assoc]

/-- The items of a group are not bodies of a repetition. -/
theorem run_visitAll {r : Renderer State Error α} (hr : r.handle = handle) (items : List Pattern)
    (s : State) (hs : s.inRepetition = false)
    : (Pattern.visitAll r items).run s = .ok () { s with text := s.text ++ sourceAll items } := by
  cases items with
  | nil =>
      rw [Pattern.visitAll, sourceAll, List.append_nil]
      rfl
  | cons item items =>
      rw [Pattern.visitAll, run_bind_of_ok (run_visit hr item s), hs,
        run_visitAll hr items ⟨s.text ++ source false item, s.scopes⟩ hs, sourceAll, List.append_assoc]

end

/-- The source between its anchors. -/
def anchored (p : Pattern) : List Char := '^' :: source false p ++ ['$']

/-- Rendering a pattern never fails. -/
theorem render_eq (p : Pattern)
    : p.render renderer = .ok (anchored p) := by
  have visited : (p.visit renderer).run renderer.initial = .ok () ⟨'^' :: source false p, []⟩ :=
    run_visit (show renderer.handle = handle from rfl) p _
  rw [Pattern.render, Pattern.run, run_bind_of_ok visited]
  rfl

end Expression

namespace Pattern

/-- Compiling a pattern is compiling its source. -/
theorem matcher?_eq (p : Pattern)
    : p.matcher? = Matcher.ofSource? (Expression.anchored p) := by
  have visited : (p.visit Matcher.renderer).run Matcher.renderer.initial
      = .ok () ⟨'^' :: Expression.source false p, []⟩ :=
    Expression.run_visit (show Matcher.renderer.handle = Expression.handle from rfl) p _
  have written : Expression.renderer.finish.run ⟨'^' :: Expression.source false p, []⟩
      = .ok (Expression.anchored p) ⟨'^' :: Expression.source false p, []⟩ := rfl
  rw [matcher?, render, run, run_bind_of_ok visited, Matcher.renderer, run_bind_of_ok written]
  cases Matcher.ofSource? (Expression.anchored p) <;> rfl

end Pattern

end Wildcard
