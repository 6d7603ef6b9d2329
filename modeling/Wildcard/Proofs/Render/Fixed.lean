import Wildcard.Proofs.Pattern.Bound
import Wildcard.Proofs.Pattern.Simple
import Wildcard.Proofs.Render.Written
import Wildcard.Render.Fixed

/-! Writing a pattern as one fixed text.
What is written for a simple pattern is its bound, escaped, and the bound is all that the pattern
matches. A pattern that is not simple is refused at its first node that varies.
-/

namespace Wildcard

namespace Fixed

open Pattern (kindsAll)

variable {α : Type} {e : Escaping} {r : Renderer (List Char) Error α}

theorem run_enter_group (e : Escaping) (s : List Char)
    : (handle e (.enter .group none none)).run s = .ok () s :=
  rfl

/-- Visiting writes the texts of literals one after the other. -/
theorem visit_relatesTexts (hr : r.handle = handle e)
    : Pattern.RelatesTexts
        (fun p text => ∀ s, (p.visit r).run s = .ok () (s ++ e.apply text))
        (fun items text => ∀ s, (Pattern.visitAll r items).run s = .ok () (s ++ e.apply text)) where
  empty s := by
    rw [Pattern.visit, hr, Escaping.apply_nil, List.append_nil]
    rfl
  literal text s := by
    rw [Pattern.visit, hr]
    rfl
  group inside s := by
    rw [Pattern.visit, hr, run_bind_of_ok (run_enter_group e s), run_bind_of_ok (inside s)]
    rfl
  nil s := by
    rw [Pattern.visitAll, Escaping.apply_nil, List.append_nil]
    rfl
  cons here behind s := by
    rw [Pattern.visitAll, run_bind_of_ok (here s), behind, Escaping.apply_append,
      List.append_assoc]

/-- Visiting a simple pattern writes its bound. -/
theorem run_visit_of_isSimple (hr : r.handle = handle e) {p : Pattern} (simple : p.isSimple)
    {bound : List Char} (h : p.lowerBound = .ok bound) (s : List Char)
    : (p.visit r).run s = .ok () (s ++ e.apply bound) :=
  (visit_relatesTexts hr).of_isSimple p simple h s

mutual

/-- Visiting a pattern that varies fails at its first node that does, by induction on the
pattern. -/
theorem run_visit_of_varies (hr : r.handle = handle e) (p : Pattern) {kind : Kind}
    (h : p.kinds.find? Kind.varies = some kind) (s : List Char)
    : ∃ t, (p.visit r).run s = .error (.notSimple kind) t := by
  cases p with
  | empty | literal => exact absurd h nofun
  | anyChar | oneOf | atLeast =>
      cases h
      rw [Pattern.visit, hr]
      exact ⟨s, rfl⟩
  | group items =>
      obtain ⟨t, ht⟩ := run_visitAll_of_varies hr items h s
      refine ⟨t, ?_⟩
      rw [Pattern.visit, hr, run_bind_of_ok (run_enter_group e s), run_bind_of_error ht]

theorem run_visitAll_of_varies (hr : r.handle = handle e) (items : List Pattern) {kind : Kind}
    (h : (kindsAll items).find? Kind.varies = some kind) (s : List Char)
    : ∃ t, (Pattern.visitAll r items).run s = .error (.notSimple kind) t := by
  cases items with
  | nil => exact absurd h nofun
  | cons item items =>
      rw [kindsAll, List.find?_append] at h
      rw [Pattern.visitAll]
      cases hitem : item.kinds.find? Kind.varies with
      | some found =>
          rw [hitem] at h
          cases h
          obtain ⟨t, ht⟩ := run_visit_of_varies hr item hitem s
          exact ⟨t, run_bind_of_error ht⟩
      | none =>
          -- this item is written, so it is an item behind it that is refused
          rw [hitem, Option.none_or] at h
          have simple := (Pattern.isSimple_iff_find?_kinds item).mpr hitem
          obtain ⟨bound, hbound, -⟩ := Pattern.matches_iff_eq_lowerBound item simple
          rw [run_bind_of_ok (run_visit_of_isSimple hr simple hbound s)]
          exact run_visitAll_of_varies hr items h _

end

variable {p : Pattern}

/-- A simple pattern is rendered as its bound, escaped. -/
theorem render_of_isSimple (simple : p.isSimple) {bound : List Char} (h : p.lowerBound = .ok bound)
    (escape : Option Char) (extra : List Char)
    : p.render (renderer escape extra)
      = .ok ((Escaping.ofOperators [] escape extra).apply bound) := by
  have visited : (p.visit (renderer escape extra)).run []
      = .ok () ((Escaping.ofOperators [] escape extra).apply bound) :=
    run_visit_of_isSimple rfl simple h []
  rw [Pattern.render, Pattern.run, show (renderer escape extra).initial = [] from rfl,
    run_bind_of_ok visited]
  rfl

/-- A pattern that varies is refused for its first node that does. -/
theorem render_of_varies {kind : Kind} (h : p.kinds.find? Kind.varies = some kind)
    (escape : Option Char) (extra : List Char)
    : p.render (renderer escape extra) = .error (.notSimple kind) := by
  obtain ⟨t, ht⟩ := run_visit_of_varies (r := renderer escape extra) rfl p h []
  rw [Pattern.render, Pattern.run, show (renderer escape extra).initial = [] from rfl,
    run_bind_of_error ht]

end Fixed

namespace Pattern

/-- The patterns that are rendered as one fixed text are the simple ones. Such a pattern is rendered
as its bound, with an escape before every extra character and before the escape itself, and its
matcher accepts the bound and nothing else. Any other pattern is refused, whatever the escape, for
the first of its nodes that varies. -/
theorem rendered_fixed_iff_isSimple (p : Pattern)
    : (p.isSimple = true ↔ ∃ text, p.render (Fixed.renderer none []) = .ok text)
      ∧ (p.isSimple = true → ∃ bound, p.lowerBound = .ok bound
          ∧ p.render (Fixed.renderer none []) = .ok bound
          ∧ (∀ escape extra, p.render (Fixed.renderer (some escape) extra)
              = .ok (Escaping.apply ⟨some escape, (CharSet.ofList extra).insert escape⟩ bound))
          ∧ ∀ m, p.matcher? = .ok m → ∀ text, m.test text = true ↔ text = bound)
      ∧ (p.isSimple = false → ∃ kind, p.kinds.find? Kind.varies = some kind
          ∧ ∀ escape extra, p.render (Fixed.renderer escape extra) = .error (.notSimple kind)) := by
  have bounded (simple : p.isSimple = true) := matches_iff_eq_lowerBound p simple
  have refused (varies : p.isSimple = false) : ∃ kind, p.kinds.find? Kind.varies = some kind
      ∧ ∀ escape extra, p.render (Fixed.renderer escape extra) = .error (.notSimple kind) := by
    obtain ⟨kind, hkind⟩ := exists_find?_kinds varies
    exact ⟨kind, hkind, Fixed.render_of_varies hkind⟩
  refine ⟨⟨?_, ?_⟩, ?_, refused⟩
  · intro simple
    obtain ⟨bound, hbound, -⟩ := bounded simple
    exact ⟨bound, Fixed.render_of_isSimple simple hbound none []⟩
  · intro rendered
    obtain ⟨text, htext⟩ := rendered
    cases simple : p.isSimple with
    | true => rfl
    | false =>
        obtain ⟨kind, -, failed⟩ := refused simple
        exact absurd (htext.symm.trans (failed none [])) nofun
  · intro simple
    obtain ⟨bound, hbound, matched⟩ := bounded simple
    refine ⟨bound, hbound, Fixed.render_of_isSimple simple hbound none [], ?_, ?_⟩
    · intro escape extra
      exact Fixed.render_of_isSimple simple hbound (some escape) extra
    · intro m compiled text
      rw [test_iff_matches compiled, matched]

/-- Groups with nothing in them and an extra character, beside a repetition that comes before a
choice. -/
theorem rendered_fixed_nested
    : let p : Pattern := .group [.literal ['a', '!'], .group [.empty, .literal []], .literal ['b']]
      let q : Pattern := .group [.literal ['a'], .atLeast (.oneOf ['b']) 2, .anyChar]
      let m : Matcher := ⟨Expression.anchored p, Expression.expression p⟩
      p.isSimple = true ∧ q.isSimple = false ∧ p.matcher? = .ok m
        ∧ p.render (Fixed.renderer (some '!') ['b']) = .ok ['a', '!', '!', '!', 'b']
        ∧ (∀ text, m.test text = true ↔ text = ['a', '!', 'b'])
        ∧ q.render (Fixed.renderer (some '!') ['b']) = .error (.notSimple .atLeast) := by
  intro p q m
  have compiled : p.matcher? = .ok m := matcher?_eq_ok_iff.mpr ⟨rfl, by decide +kernel, rfl⟩
  obtain ⟨-, fixed, -⟩ := rendered_fixed_iff_isSimple p
  obtain ⟨bound, hbound, -, escaped, accepted⟩ := fixed rfl
  cases (show Except.ok ['a', '!', 'b'] = Except.ok bound from hbound)
  obtain ⟨-, -, refused⟩ := rendered_fixed_iff_isSimple q
  obtain ⟨kind, first, failed⟩ := refused rfl
  cases (show some Kind.atLeast = some kind from first)
  exact ⟨rfl, rfl, compiled, escaped '!' ['b'], accepted m compiled, failed (some '!') ['b']⟩

end Pattern

end Wildcard
