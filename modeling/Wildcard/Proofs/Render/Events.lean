import Wildcard.Proofs.Render.Written
import Wildcard.Render.Fixed
import Wildcard.Render.Recorder

/-! What a renderer hears of a pattern.
The events of a pattern are a list that depends on the pattern alone. Every renderer is called with
these events one after the other, up to the first that fails, and is asked for its result after the
last of them only. No two patterns have the same events.
-/

namespace Wildcard

variable {σ ε α β : Type}

-----------------------------------------------------------------------------------------
-- The events of a pattern
-----------------------------------------------------------------------------------------

namespace Pattern

mutual

/-- The events of a pattern: a node is entered, then come the events of its children, then it is
left. -/
def events : Pattern → List Event
  | .group items => .enter .group none none :: eventsOfAll items ++ [.leave .group]
  | .atLeast body count => .enter .atLeast (some count) none :: events body ++ [.leave .atLeast]
  | leaf => [.enter leaf.kind leaf.count? leaf.chars?, .leave leaf.kind]

def eventsOfAll : List Pattern → List Event
  | [] => []
  | item :: items => events item ++ eventsOfAll items

end

/-- What a renderer that never fails is called with. -/
def calls (p : Pattern) : List Call := p.events.map .event ++ [.finish]

theorem eventsOfAll_eq_flatMap (items : List Pattern)
    : eventsOfAll items = items.flatMap events := by
  induction items with
  | nil => rfl
  | cons item items ih => rw [eventsOfAll, List.flatMap_cons, ih]

/-- The events of a node are those of its children between two of its own. -/
theorem events_eq (p : Pattern)
    : p.events
      = .enter p.kind p.count? p.chars? :: p.children.flatMap events ++ [.leave p.kind] := by
  cases p with
  | group items => simp only [events, kind, count?, chars?, children, eventsOfAll_eq_flatMap]
  | atLeast body count =>
      simp only [events, kind, count?, chars?, children, List.flatMap_cons, List.flatMap_nil,
        List.append_nil]
  | _ => rfl

mutual

/-- The events of a pattern say where they end and which pattern it is, whatever comes after them,
by induction on the pattern. -/
theorem events_append_inj (p q : Pattern) {rest more : List Event}
    (h : p.events ++ rest = q.events ++ more)
    : p = q ∧ rest = more := by
  cases p with
  | group items =>
      cases q with
      | group others =>
          simp only [events, List.cons_append, List.append_assoc, List.cons.injEq, true_and,
            List.nil_append] at h
          obtain ⟨rfl, rfl⟩ := eventsOfAll_append_inj items others h
          exact ⟨rfl, rfl⟩
      | _ => simp [events, kind] at h
  | atLeast body count =>
      cases q with
      | atLeast other times =>
          simp only [events, List.cons_append, List.append_assoc, List.cons.injEq, Event.enter.injEq,
            Option.some.injEq, true_and, and_true, List.nil_append] at h
          obtain ⟨rfl, inside⟩ := h
          obtain ⟨rfl, behind⟩ := events_append_inj body other inside
          exact ⟨rfl, (List.cons.inj behind).2⟩
      | _ => simp [events, kind] at h
  | _ => cases q <;> simp_all [events, kind, chars?]

/-- Items end where something is left that was not entered among them. -/
theorem eventsOfAll_append_inj (items others : List Pattern) {kind : Kind}
    {rest more : List Event}
    (h : eventsOfAll items ++ .leave kind :: rest = eventsOfAll others ++ .leave kind :: more)
    : items = others ∧ rest = more := by
  cases items with
  | nil =>
      cases others with
      | nil => exact ⟨rfl, (List.cons.inj h).2⟩
      | cons other others => simp [eventsOfAll, events_eq other] at h
  | cons item items =>
      cases others with
      | nil => simp [eventsOfAll, events_eq item] at h
      | cons other others =>
          simp only [eventsOfAll, List.append_assoc] at h
          obtain ⟨rfl, behind⟩ := events_append_inj item other h
          obtain ⟨rfl, after⟩ := eventsOfAll_append_inj items others behind
          exact ⟨rfl, after⟩

end

/-- Patterns with the same events are the same pattern. -/
theorem events_inj {p q : Pattern}
    : p.events = q.events ↔ p = q := by
  refine ⟨?_, congrArg events⟩
  intro same
  exact (events_append_inj p q (congrArg (· ++ []) same)).1

mutual

/-- Visiting a pattern is handling its events in order, by induction on the pattern. -/
theorem visit_eq_forM (r : Renderer σ ε α) (p : Pattern)
    : p.visit r = p.events.forM r.handle := by
  cases p with
  | group items => simp [visit, events, visitAll_eq_forM r items]
  | atLeast body count => simp [visit, events, visit_eq_forM r body]
  | _ => simp [visit, events, kind, count?, chars?]

theorem visitAll_eq_forM (r : Renderer σ ε α) (items : List Pattern)
    : visitAll r items = (eventsOfAll items).forM r.handle := by
  cases items with
  | nil => rfl
  | cons item items =>
      simp [visitAll, eventsOfAll, visit_eq_forM r item, visitAll_eq_forM r items]

end

end Pattern

-----------------------------------------------------------------------------------------
-- Handling one event after the other
-----------------------------------------------------------------------------------------

/-- A state together with the calls that led to it. -/
structure Logged (σ : Type) where
  calls : List Call
  state : σ

/-- Does what a call asks for and keeps the call, whether it fails or not. -/
def Logged.perform (call : Call) (action : EStateM ε σ β) : EStateM ε (Logged σ) β := fun s =>
  match action.run s.state with
  | .ok b t => .ok b ⟨s.calls ++ [call], t⟩
  | .error fault t => .error fault ⟨s.calls ++ [call], t⟩

namespace Renderer

variable {r : Renderer σ ε α} {s t u : σ} {event : Event} {events before : List Event} {fault : ε}

/-- The same renderer with a list of its calls. -/
def logged (r : Renderer σ ε α) : Renderer (Logged σ) ε α where
  initial := ⟨[], r.initial⟩
  handle event := Logged.perform (.event event) (r.handle event)
  finish := Logged.perform .finish r.finish

/-- Some events are handled in order, and none of them fails. -/
inductive Takes (r : Renderer σ ε α) : σ → List Event → σ → Prop where
  | nil (s : σ) : Takes r s [] s
  | cons {s t u : σ} {event : Event} {events : List Event}
    (here : (r.handle event).run s = .ok () t) (others : Takes r t events u)
    : Takes r s (event :: events) u

theorem Takes.run (h : r.Takes s events t)
    : (events.forM r.handle).run s = .ok () t := by
  induction h with
  | nil => rfl
  | cons here _ ih =>
      rw [List.forM_eq_forM, List.forM_cons, run_bind_of_ok here]
      exact ih

/-- Handling ends with the first event that fails. -/
theorem Takes.run_fails (h : r.Takes s before t)
    (fails : (r.handle event).run t = .error fault u) (after : List Event)
    : ((before ++ event :: after).forM r.handle).run s = .error fault u := by
  induction h with
  | nil =>
      rw [List.nil_append, List.forM_eq_forM, List.forM_cons, run_bind_of_error fails]
  | cons here _ ih =>
      rw [List.cons_append, List.forM_eq_forM, List.forM_cons, run_bind_of_ok here]
      exact ih fails

theorem run_logged_handle_of_ok (h : (r.handle event).run s = .ok () t) (calls : List Call)
    : (r.logged.handle event).run ⟨calls, s⟩ = .ok () ⟨calls ++ [.event event], t⟩ := by
  change Logged.perform _ _ _ = _
  rw [Logged.perform, h]

theorem run_logged_handle_of_error (h : (r.handle event).run s = .error fault t)
    (calls : List Call)
    : (r.logged.handle event).run ⟨calls, s⟩ = .error fault ⟨calls ++ [.event event], t⟩ := by
  change Logged.perform _ _ _ = _
  rw [Logged.perform, h]

/-- The calls of events that are taken are these events, by induction on them. -/
theorem Takes.logged (h : r.Takes s events t) (calls : List Call)
    : r.logged.Takes ⟨calls, s⟩ events ⟨calls ++ events.map .event, t⟩ := by
  induction h generalizing calls with
  | nil =>
      rw [List.map_nil, List.append_nil]
      exact .nil _
  | @cons s t u event events here _ ih =>
      have others := ih (calls ++ [.event event])
      rw [List.append_assoc, List.singleton_append] at others
      exact .cons (run_logged_handle_of_ok here calls) others

/-- Either all events are taken or one of them is the first to fail, by induction on them. -/
theorem takes_or_fails (r : Renderer σ ε α) (s : σ) (events : List Event)
    : (∃ t, r.Takes s events t)
      ∨ ∃ before event after t u fault, events = before ++ event :: after
        ∧ r.Takes s before t ∧ (r.handle event).run t = .error fault u := by
  induction events generalizing s with
  | nil => exact .inl ⟨s, .nil s⟩
  | cons event events ih =>
      cases here : (r.handle event).run s with
      | error fault u => exact .inr ⟨[], event, events, s, u, fault, rfl, .nil s, here⟩
      | ok _ t =>
          obtain ⟨u, others⟩ | ⟨before, next, after, u, v, fault, rfl, others, fails⟩ := ih t
          · exact .inl ⟨u, .cons here others⟩
          · exact .inr ⟨event :: before, next, after, u, v, fault, rfl, .cons here others, fails⟩

end Renderer

-----------------------------------------------------------------------------------------
-- Hearing a pattern
-----------------------------------------------------------------------------------------

namespace Pattern

variable {p : Pattern} {r : Renderer σ ε α}

/-- The calls that a renderer gets for a pattern, the one that fails among them. -/
def heard (p : Pattern) (r : Renderer σ ε α) : List Call :=
  match p.run r.logged with
  | .ok _ s | .error _ s => s.calls

theorem run_eq_forM (p : Pattern) (r : Renderer σ ε α)
    : p.run r = (do p.events.forM r.handle; r.finish).run r.initial := by
  rw [run, visit_eq_forM]

/-- A renderer that takes all events is asked for its result after them. -/
theorem heard_of_takes {s : σ} (h : r.Takes r.initial p.events s)
    : p.heard r = p.calls ∧ p.run r = r.finish.run s := by
  refine ⟨?_, ?_⟩
  · have visited : (p.events.forM r.logged.handle).run r.logged.initial
        = .ok () ⟨p.events.map .event, s⟩ := (h.logged []).run
    have finished : r.logged.finish.run ⟨p.events.map .event, s⟩
        = match r.finish.run s with
          | .ok a t => .ok a ⟨p.calls, t⟩
          | .error fault t => .error fault ⟨p.calls, t⟩ := rfl
    rw [heard, run_eq_forM, run_bind_of_ok visited, finished]
    cases r.finish.run s <;> rfl
  · rw [run_eq_forM, run_bind_of_ok h.run]

theorem take_calls {before after : List Event} {event : Event}
    (split : p.events = before ++ event :: after)
    : p.calls.take (before.length + 1) = (before ++ [event]).map .event := by
  have parts : p.calls = (before ++ [event]).map .event ++ (after.map .event ++ [.finish]) := by
    simp [calls, split]
  rw [parts]
  exact List.take_left' (by simp)

/-- The first event that fails is the last call, and its fault is the outcome. -/
theorem heard_of_fails {before after : List Event} {event : Event} {s t : σ} {fault : ε}
    (split : p.events = before ++ event :: after) (taken : r.Takes r.initial before s)
    (fails : (r.handle event).run s = .error fault t)
    : p.heard r = p.calls.take (before.length + 1) ∧ p.run r = .error fault t := by
  refine ⟨?_, ?_⟩
  · have visited : ((before ++ event :: after).forM r.logged.handle).run r.logged.initial
        = .error fault ⟨before.map .event ++ [.event event], t⟩ :=
      (taken.logged []).run_fails (Renderer.run_logged_handle_of_error fails _) after
    rw [take_calls split, heard, run_eq_forM, split, run_bind_of_error visited,
      List.map_append]
    rfl
  · rw [run_eq_forM, split, run_bind_of_error (taken.run_fails fails after)]

/-- A renderer is called with the events of a pattern in order. If it takes them all it is asked for
its result, which is the last call. If one of them fails, that event is the last call, and its fault
is the outcome. So the calls are always the first of what a renderer that never fails is called with,
and the result is asked for only after all events. The events tell the pattern. -/
theorem heard_in_order (p : Pattern) (r : Renderer σ ε α)
    : p.events = .enter p.kind p.count? p.chars? :: p.children.flatMap events ++ [.leave p.kind]
      ∧ (∀ s, r.Takes r.initial p.events s → p.heard r = p.calls ∧ p.run r = r.finish.run s)
      ∧ (∀ before event after s t fault, p.events = before ++ event :: after →
          r.Takes r.initial before s → (r.handle event).run s = .error fault t →
            p.heard r = p.calls.take (before.length + 1) ∧ p.run r = .error fault t)
      ∧ p.heard r <+: p.calls
      ∧ (.finish ∈ p.heard r ↔ ∃ s, r.Takes r.initial p.events s)
      ∧ ∀ q : Pattern, p.events = q.events ↔ p = q := by
  have outcomes := r.takes_or_fails r.initial p.events
  refine ⟨events_eq p, fun s => heard_of_takes, ?_, ?_, ?_, fun q => events_inj⟩
  · intro before event after s t fault split taken fails
    exact heard_of_fails split taken fails
  · obtain ⟨s, taken⟩ | ⟨before, event, after, s, t, fault, split, taken, fails⟩ := outcomes
    · exact ⟨[], by rw [(heard_of_takes taken).1, List.append_nil]⟩
    · rw [(heard_of_fails split taken fails).1]
      exact List.take_prefix _ _
  · refine ⟨?_, ?_⟩
    · intro finished
      refine outcomes.resolve_right ?_
      rintro ⟨before, event, after, s, t, fault, split, taken, fails⟩
      rw [(heard_of_fails split taken fails).1, take_calls split] at finished
      simp at finished
    · rintro ⟨s, taken⟩
      rw [(heard_of_takes taken).1, calls]
      simp

/-- Two literals are written and then the result is asked for. A repetition is refused when it is
entered, and its body is not heard. -/
theorem heard_in_order_refused
    : let p : Pattern := .group [.literal ['a'], .literal ['b']]
      let q : Pattern := .group [.literal ['a'], .atLeast .anyChar 2]
      let r := Fixed.renderer none []
      r.Takes [] p.events ['a', 'b'] ∧ p.heard r = p.calls ∧ p.run r = .ok ['a', 'b'] ['a', 'b']
        ∧ r.Takes [] (q.events.take 3) ['a']
        ∧ (r.handle (.enter .atLeast (some 2) none)).run ['a'] = .error (.notSimple .atLeast) ['a']
        ∧ q.heard r = q.calls.take 4 ∧ q.run r = .error (.notSimple .atLeast) ['a']
        ∧ p.events ≠ q.events := by
  intro p q r
  have taken : r.Takes [] p.events ['a', 'b'] :=
    .cons rfl (.cons rfl (.cons rfl (.cons rfl (.cons rfl (.cons rfl (.nil _))))))
  have takenBefore : r.Takes [] (q.events.take 3) ['a'] :=
    .cons rfl (.cons rfl (.cons rfl (.nil _)))
  have fails : (r.handle (.enter .atLeast (some 2) none)).run ['a']
      = .error (.notSimple .atLeast) ['a'] := rfl
  obtain ⟨-, completed, -, -, -, tells⟩ := heard_in_order p r
  obtain ⟨-, -, stopped, -⟩ := heard_in_order q r
  obtain ⟨hp, writtenText⟩ := completed _ taken
  obtain ⟨hq, refused⟩ := stopped _ _ (q.events.drop 4) _ _ _ rfl takenBefore fails
  exact ⟨taken, hp, writtenText, takenBefore, fails, hq, refused,
    fun same => absurd ((tells q).mp same) (by simp [p, q])⟩

end Pattern

end Wildcard
