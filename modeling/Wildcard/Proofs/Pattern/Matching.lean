import Wildcard.Pattern.Language
import Wildcard.Proofs.Regex.Repeats
import Wildcard.Proofs.Regex.Search
import Wildcard.Proofs.Regex.Sequence
import Wildcard.Proofs.Render.ReadBack

/-! A matcher decides the language of its pattern.
The source of a pattern is read back as an expression of the same shape, in which only the outer
anchors ask for a place in the text, so the parts of the expression accept what the parts of the
pattern match.
-/

namespace Wildcard.Pattern

open Expression (letters parts partsAll expression countsFit)
open Regex (AcceptsAll Repeats)

/-- Without a say of the place, stretches in a row are texts in a row. -/
theorem repeats_iff_inARow {P : Bool → Bool → List Char → Prop} {Q : List Char → Prop}
    (hPQ : ∀ atStart atEnd text, P atStart atEnd text ↔ Q text) {count : Nat}
    {atStart atEnd : Bool} {text : List Char}
    : Repeats P count atStart atEnd text ↔ InARow Q count text := by
  refine ⟨?_, ?_⟩
  · intro row
    induction row with
    | done => exact .done
    | more here _ ih => exact .more ((hPQ _ _ _).mp here) ih
  · intro row
    induction row generalizing atStart atEnd with
    | done => exact .done atStart atEnd
    | more here _ ih => exact .more ((hPQ _ _ _).mpr here) ih

/-- Letters accept the text that they spell, by induction on it. -/
theorem acceptsAll_letters (chars : List Char) {atStart atEnd : Bool} {text : List Char}
    : AcceptsAll (letters chars) atStart atEnd text ↔ text = chars := by
  induction chars generalizing atStart text with
  | nil => exact Iff.rfl
  | cons c cs ih =>
      simp only [letters, List.map_cons, AcceptsAll] at ih ⊢
      simp only [ih, Regex.Accepts, CharClass.contains, beq_iff_eq]
      refine ⟨?_, ?_⟩
      · intro accepted
        rcases accepted with ⟨_, _, rfl, ⟨_, rfl, rfl⟩, rfl⟩
        rfl
      · intro same
        exact ⟨[c], cs, same, ⟨c, rfl, rfl⟩, rfl⟩

mutual

/-- The parts of an expression accept what the pattern matches, wherever it lies, by induction on
the pattern. -/
theorem acceptsAll_parts (repeats : Bool) (p : Pattern) (atStart atEnd : Bool) (text : List Char)
    : AcceptsAll (parts repeats p) atStart atEnd text ↔ p.Matches text := by
  cases p with
  | empty =>
      cases repeats with
      | false => exact Iff.rfl
      | true => exact Regex.acceptsAll_singleton
  | anyChar =>
      rw [parts, Regex.acceptsAll_singleton]
      simp only [Regex.Accepts, CharClass.contains, true_and, Matches]
  | literal chars =>
      rw [parts]
      split
      · rw [Regex.acceptsAll_singleton, Regex.Accepts, Regex.accepts_sequence, acceptsAll_letters,
          Matches]
      · exact acceptsAll_letters chars
  | oneOf candidates =>
      rw [parts, Regex.acceptsAll_singleton]
      simp only [Regex.Accepts, Expression.contains_classOf, Matches]
  | group items =>
      rw [parts, Regex.acceptsAll_singleton, Regex.Accepts, Regex.accepts_sequence]
      exact acceptsAll_partsAll items atStart atEnd text
  | atLeast body count =>
      rw [parts, Regex.acceptsAll_singleton, Regex.Accepts]
      refine repeats_iff_inARow ?_
      intro atStart atEnd stretch
      rw [Regex.accepts_sequence]
      exact acceptsAll_parts true body atStart atEnd stretch

theorem acceptsAll_partsAll (items : List Pattern) (atStart atEnd : Bool) (text : List Char)
    : AcceptsAll (partsAll items) atStart atEnd text ↔ MatchesAll items text := by
  cases items with
  | nil => exact Iff.rfl
  | cons item items =>
      rw [partsAll, Regex.acceptsAll_append]
      simp only [acceptsAll_parts false item, acceptsAll_partsAll items, MatchesAll]

end

/-- The expression of a pattern is found where the pattern matches. -/
theorem finds_expression (p : Pattern) (text : List Char)
    : (expression p).Finds text ↔ p.Matches text := by
  rw [expression, Regex.finds_anchored, acceptsAll_parts]

/-- A pattern has a matcher if its counts fit and its expression keeps to the limits. The matcher
holds the source of the pattern and the expression that this is read as. -/
theorem matcher?_eq_ok_iff {p : Pattern} {m : Matcher}
    : p.matcher? = .ok m
      ↔ countsFit p ∧ (expression p).withinLimits
        ∧ m = ⟨Expression.anchored p, expression p⟩ := by
  rw [matcher?_eq, Matcher.ofSource?, Expression.ofSource?_anchored]
  cases countsFit p with
  | false => simp
  | true =>
      cases hlimits : (expression p).withinLimits with
      | false => simp [hlimits]
      | true => simp [hlimits, eq_comm]

/-- A matcher accepts the texts that its pattern matches. -/
theorem test_iff_matches {p : Pattern} {m : Matcher} (h : p.matcher? = .ok m) (text : List Char)
    : m.test text ↔ p.Matches text := by
  obtain ⟨-, -, rfl⟩ := matcher?_eq_ok_iff.mp h
  rw [Matcher.test, Regex.isFoundIn_iff_finds, finds_expression]

/-- The source of a matcher is the rendered pattern. -/
theorem render_eq_source {p : Pattern} {m : Matcher} (h : p.matcher? = .ok m)
    : p.render Expression.renderer = .ok m.source := by
  obtain ⟨-, -, rfl⟩ := matcher?_eq_ok_iff.mp h
  exact Expression.render_eq p

/-- The matcher of a pattern holds the rendered pattern, and it accepts the texts that the pattern
matches and no others. -/
theorem matcher_decides_language {p : Pattern} {m : Matcher} (h : p.matcher? = .ok m)
    : p.render Expression.renderer = .ok m.source
      ∧ ∀ text, m.test text = true ↔ p.Matches text :=
  ⟨render_eq_source h, test_iff_matches h⟩

/-- A group in a repetition in a repetition, with escapes inside and outside of a class. -/
theorem matcher_decides_nested_repetition
    : let p : Pattern := .atLeast (.atLeast (.group
        [.literal ['a', '.'], .oneOf [']', '^', '-'], .empty, .literal []]) 2) 1
      let m : Matcher := ⟨Expression.anchored p, expression p⟩
      p.matcher? = .ok m ∧ p.render Expression.renderer = .ok m.source
        ∧ ∀ text, m.test text = true ↔ p.Matches text := by
  intro p m
  have compiled : p.matcher? = .ok m := matcher?_eq_ok_iff.mpr ⟨rfl, by decide +kernel, rfl⟩
  exact ⟨compiled, matcher_decides_language compiled⟩

end Wildcard.Pattern
