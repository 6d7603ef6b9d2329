import Mathlib.Logic.Relation
import Wildcard.Proofs.Pattern.Repetition
import Wildcard.Proofs.Render.Fixed
import Wildcard.Proofs.Render.Items

/-! Groups leave no trace.
However the items of a pattern are put into groups, the same is written for the pattern, it has the
same bound and it matches the same texts. The tree may change anywhere, also inside of repetitions,
so likeness is shown to pass from the parts of a pattern to the whole.
-/

namespace Wildcard.Pattern

mutual

/-- One change of the groups, somewhere in a pattern. -/
inductive Regroups : Pattern → Pattern → Prop where
  | single (item : Pattern) : Regroups (.group [item]) item
  | nothing : Regroups (.group []) .empty
  | items {items others : List Pattern} (h : RegroupsItems items others)
    : Regroups (.group items) (.group others)
  | body {body other : Pattern} (h : Regroups body other) (count : Nat)
    : Regroups (.atLeast body count) (.atLeast other count)

/-- One change among the items of a group, or inside one of them. -/
inductive RegroupsItems : List Pattern → List Pattern → Prop where
  | splice (inner items : List Pattern) : RegroupsItems (.group inner :: items) (inner ++ items)
  | dropEmpty (items : List Pattern) : RegroupsItems (.empty :: items) items
  | dropLiteral (items : List Pattern) : RegroupsItems (.literal [] :: items) items
  | merge (first next : List Char) (items : List Pattern)
    : RegroupsItems (.literal first :: .literal next :: items) (.literal (first ++ next) :: items)
  | here {item other : Pattern} (h : Regroups item other) (items : List Pattern)
    : RegroupsItems (item :: items) (other :: items)
  | later (item : Pattern) {items others : List Pattern} (h : RegroupsItems items others)
    : RegroupsItems (item :: items) (item :: others)

end

variable {sp : Spelling} {e : Escaping} {p q r : Pattern} {items others : List Pattern}

-----------------------------------------------------------------------------------------
-- Likeness
-----------------------------------------------------------------------------------------

/-- Two patterns are written alike in a language, vary alike, and have the same bound and the same
matches. -/
structure Alike (sp : Spelling) (e : Escaping) (p q : Pattern) : Prop where
  written : sp.written e p = sp.written e q
  varying : p.kinds.filter Kind.varies = q.kinds.filter Kind.varies
  lowerBound : p.lowerBound = q.lowerBound
  matched : p.Matches = q.Matches

/-- The same of items in a row. -/
structure AlikeItems (sp : Spelling) (e : Escaping) (items others : List Pattern) : Prop where
  written : sp.writtenAll e items = sp.writtenAll e others
  varying : (kindsAll items).filter Kind.varies = (kindsAll others).filter Kind.varies
  bound : boundOfItems items = boundOfItems others
  matched : MatchesAll items = MatchesAll others

theorem Alike.refl (p : Pattern)
    : Alike sp e p p :=
  ⟨rfl, rfl, rfl, rfl⟩

theorem Alike.symm (h : Alike sp e p q)
    : Alike sp e q p :=
  ⟨h.written.symm, h.varying.symm, h.lowerBound.symm, h.matched.symm⟩

theorem Alike.trans (h : Alike sp e p q) (next : Alike sp e q r)
    : Alike sp e p r :=
  ⟨h.written.trans next.written, h.varying.trans next.varying,
    h.lowerBound.trans next.lowerBound, h.matched.trans next.matched⟩

theorem AlikeItems.refl (items : List Pattern)
    : AlikeItems sp e items items :=
  ⟨rfl, rfl, rfl, rfl⟩

theorem AlikeItems.symm (h : AlikeItems sp e items others)
    : AlikeItems sp e others items :=
  ⟨h.written.symm, h.varying.symm, h.bound.symm, h.matched.symm⟩

theorem AlikeItems.trans {more : List Pattern} (h : AlikeItems sp e items others)
    (next : AlikeItems sp e others more)
    : AlikeItems sp e items more :=
  ⟨h.written.trans next.written, h.varying.trans next.varying, h.bound.trans next.bound,
    h.matched.trans next.matched⟩

/-- The first node that varies is of the same kind in both. -/
theorem Alike.find?_kinds (h : Alike sp e p q)
    : p.kinds.find? Kind.varies = q.kinds.find? Kind.varies := by
  rw [← List.head?_filter, ← List.head?_filter, h.varying]

theorem Alike.isSimple (h : Alike sp e p q)
    : p.isSimple = q.isSimple := by
  rw [Bool.eq_iff_iff, isSimple_iff_find?_kinds, isSimple_iff_find?_kinds, h.find?_kinds]

/-- Likeness passes from a body to its repetition. -/
theorem Alike.atLeast (h : Alike sp e p q) (count : Nat)
    : Alike sp e (.atLeast p count) (.atLeast q count) where
  written := by rw [Spelling.written, Spelling.written, h.written]
  varying := congrArg (Kind.atLeast :: ·) h.varying
  lowerBound := by
    rw [Pattern.lowerBound, Pattern.lowerBound, h.lowerBound, h.isSimple]
  matched := by
    funext text
    rw [Matches, Matches, h.matched]

/-- Likeness passes from items to their group. -/
theorem AlikeItems.group (h : AlikeItems sp e items others)
    : Alike sp e (.group items) (.group others) :=
  ⟨h.written, h.varying, h.bound, h.matched⟩

/-- Likeness passes from an item and the items behind it to the row of them. -/
theorem Alike.cons (h : Alike sp e p q) (behind : AlikeItems sp e items others)
    : AlikeItems sp e (p :: items) (q :: others) where
  written := by rw [Spelling.writtenAll, Spelling.writtenAll, h.written, behind.written]
  varying := by
    rw [kindsAll, kindsAll, List.filter_append, List.filter_append, h.varying, behind.varying]
  bound := by
    rw [boundOfItems, boundOfItems, h.lowerBound, h.isSimple, behind.bound]
  matched := by
    change Joined p.Matches (MatchesAll items) = Joined q.Matches (MatchesAll others)
    rw [h.matched, behind.matched]

-----------------------------------------------------------------------------------------
-- Items in a row
-----------------------------------------------------------------------------------------

/-- What is written for a row is what is written for its two parts, by induction on the first. -/
theorem writtenAll_append (sp : Spelling) (e : Escaping) (items others : List Pattern)
    : sp.writtenAll e (items ++ others) = do
        let first ← sp.writtenAll e items
        let rest ← sp.writtenAll e others
        return first ++ rest := by
  induction items with
  | nil => exact (bind_pure (sp.writtenAll e others)).symm
  | cons item items ih =>
      rw [List.cons_append, Spelling.writtenAll, ih, Spelling.writtenAll]
      simp only [bind_assoc, pure_bind, List.append_assoc]

theorem kindsAll_append (items others : List Pattern)
    : kindsAll (items ++ others) = kindsAll items ++ kindsAll others := by
  induction items with
  | nil => rfl
  | cons item items ih => rw [List.cons_append, kindsAll, ih, kindsAll, List.append_assoc]

/-- The bound of a row is that of its first part, and goes on if this is simple, by induction on the
first part. -/
theorem boundOfItems_append (items others : List Pattern)
    : boundOfItems (items ++ others) = do
        let bound ← boundOfItems items
        if allSimple items then return bound ++ (← boundOfItems others) else return bound := by
  induction items with
  | nil => exact (bind_pure (boundOfItems others)).symm
  | cons item items ih =>
      rw [List.cons_append, boundOfItems, ih, boundOfItems, allSimple]
      cases item.isSimple with
      | false => simp
      | true =>
          cases allSimple items <;>
            simp only [Bool.true_and, Bool.false_eq_true, if_true, if_false, bind_assoc, pure_bind,
              List.append_assoc]

theorem matchesAll_append (items others : List Pattern)
    : MatchesAll (items ++ others) = Joined (MatchesAll items) (MatchesAll others) := by
  induction items with
  | nil => exact nil_joined.symm
  | cons item items ih =>
      change Joined item.Matches (MatchesAll (items ++ others))
        = Joined (Joined item.Matches (MatchesAll items)) (MatchesAll others)
      rw [ih, joined_assoc]

theorem alikeItems_splice (inner items : List Pattern)
    : AlikeItems sp e (.group inner :: items) (inner ++ items) where
  written := (writtenAll_append sp e inner items).symm
  varying := by rw [kindsAll_append]; rfl
  bound := (boundOfItems_append inner items).symm
  matched := (matchesAll_append inner items).symm

/-- A group of several items, or of one or none, is like what is made of its items. -/
theorem alike_ofItems (items : List Pattern)
    : Alike sp e (.ofItems items) (.group items) where
  written := Spelling.written_ofItems e
  varying := by
    match items with
    | [] | _ :: _ :: _ => rfl
    | [item] => simp [ofItems, kinds, kindsAll, Kind.varies]
  lowerBound := lowerBound_ofItems items
  matched := by
    funext text
    exact propext matches_ofItems

theorem alike_literal_nil
    : Alike sp e (.literal []) .empty :=
  ⟨congrArg Except.ok e.apply_nil, rfl, rfl, rfl⟩

/-- Two literals in a row are like the literal of both texts. -/
theorem alike_literal_append (first next : List Char)
    : Alike sp e (.group [.literal first, .literal next]) (.literal (first ++ next)) where
  written := by
    change Except.ok (e.apply first ++ (e.apply next ++ [])) = .ok (e.apply (first ++ next))
    rw [List.append_nil, Escaping.apply_append]
  varying := rfl
  lowerBound := by
    change Except.ok (first ++ (next ++ [])) = .ok (first ++ next)
    rw [List.append_nil]
  matched := by
    funext text
    simp [Matches, MatchesAll]

-----------------------------------------------------------------------------------------
-- Regrouping
-----------------------------------------------------------------------------------------

mutual

/-- Patterns that differ by one change of the groups are alike, by induction on where it is. -/
theorem alike_of_regroups {p q : Pattern} (h : Regroups p q)
    : Alike sp e p q := by
  cases h with
  | single item => exact (alike_ofItems [q]).symm
  | nothing => exact (alike_ofItems []).symm
  | items h => exact (alikeItems_of_regroupsItems h).group
  | body h count => exact (alike_of_regroups h).atLeast count

theorem alikeItems_of_regroupsItems {items others : List Pattern}
    (h : RegroupsItems items others)
    : AlikeItems sp e items others := by
  cases h with
  | splice inner items => exact alikeItems_splice inner items
  | dropEmpty =>
      exact ((alike_ofItems []).cons (.refl others)).trans (alikeItems_splice [] others)
  | dropLiteral =>
      have nothing : Alike sp e (.literal []) (.group []) :=
        alike_literal_nil.trans (alike_ofItems [])
      exact (nothing.cons (.refl others)).trans (alikeItems_splice [] others)
  | merge first next items =>
      have apart : AlikeItems sp e (.group [.literal first, .literal next] :: items)
          (.literal first :: .literal next :: items) := alikeItems_splice _ items
      exact apart.symm.trans ((alike_literal_append first next).cons (.refl items))
  | here h items => exact (alike_of_regroups h).cons (.refl items)
  | later item h => exact (Alike.refl item).cons (alikeItems_of_regroupsItems h)

end

/-- So are patterns that differ by any changes, in either direction. -/
theorem alike_of_eqvGen (h : Relation.EqvGen Regroups p q)
    : Alike sp e p q := by
  induction h with
  | rel _ _ changed => exact alike_of_regroups changed
  | refl p => exact .refl p
  | symm _ _ _ ih => exact ih.symm
  | trans _ _ _ _ _ ih next => exact ih.trans next

/-- Nothing that is done with patterns tells two of them apart: both are written alike in the
wildcard languages and as a fixed text, or refused for the same fault, both have the same bound and
are simple or not, and their matchers accept the same texts. -/
structure Interchangeable (p q : Pattern) : Prop where
  rendered : ∀ (sp : Spelling) escape extra,
    p.render (sp.renderer escape extra) = q.render (sp.renderer escape extra)
  fixed : ∀ escape extra,
    p.render (Fixed.renderer escape extra) = q.render (Fixed.renderer escape extra)
  isSimple : p.isSimple = q.isSimple
  lowerBound : p.lowerBound = q.lowerBound
  accepted : ∀ m n, p.matcher? = .ok m → q.matcher? = .ok n → ∀ text, m.test text = n.test text

/-- A fixed text depends on the bound and on the first node that varies only. -/
theorem Alike.render_fixed (h : Alike sp e p q) (escape : Option Char) (extra : List Char)
    : p.render (Fixed.renderer escape extra) = q.render (Fixed.renderer escape extra) := by
  cases simple : p.isSimple with
  | true =>
      obtain ⟨bound, hbound, -⟩ := matches_iff_eq_lowerBound p simple
      rw [Fixed.render_of_isSimple simple hbound,
        Fixed.render_of_isSimple (h.isSimple ▸ simple) (h.lowerBound ▸ hbound)]
  | false =>
      obtain ⟨kind, hkind⟩ := exists_find?_kinds simple
      rw [Fixed.render_of_varies hkind, Fixed.render_of_varies (h.find?_kinds ▸ hkind)]

theorem Alike.test_eq (h : Alike sp e p q) {m n : Matcher} (hm : p.matcher? = .ok m)
    (hn : q.matcher? = .ok n) (text : List Char)
    : m.test text = n.test text := by
  rw [Bool.eq_iff_iff, test_iff_matches hm, test_iff_matches hn, h.matched]

theorem interchangeable_of_alike (h : ∀ sp e, Alike sp e p q)
    : p.Interchangeable q := by
  -- only writing depends on the language, so any language will do for the rest
  have alike := h Unix.spelling Expression.escaping
  refine ⟨?_, alike.render_fixed, alike.isSimple, alike.lowerBound,
    fun _ _ hm hn => alike.test_eq hm hn⟩
  intro sp escape extra
  rw [Spelling.render_eq_written, Spelling.render_eq_written, (h sp _).written]

/-- However the groups of a pattern change, in any number of steps and anywhere in its tree, nothing
tells the patterns apart. So it makes no difference whether three patterns follow one another from
the left or from the right, nor whether items are put into a group that has fewer than two. -/
theorem regrouped_patterns_interchangeable
    : (∀ p q, Relation.EqvGen Regroups p q → p.Interchangeable q)
      ∧ (∀ first next last : Pattern,
          ((first.followedBy next).followedBy last).Interchangeable
            (first.followedBy (next.followedBy last)))
      ∧ ∀ items, (ofItems items).Interchangeable (.group items) := by
  have regrouped (p q : Pattern) (h : Relation.EqvGen Regroups p q) : p.Interchangeable q :=
    interchangeable_of_alike fun _ _ => alike_of_eqvGen h
  refine ⟨regrouped, ?_, ?_⟩
  · intro first next last
    have left : Regroups ((first.followedBy next).followedBy last) (.group [first, next, last]) :=
      .items (.splice [first, next] [last])
    have right : Regroups (first.followedBy (next.followedBy last)) (.group [first, next, last]) :=
      .items (.later first (.splice [next, last] []))
    exact regrouped _ _ (.trans _ _ _ (.rel _ _ left) (.symm _ _ (.rel _ _ right)))
  · intro items
    exact interchangeable_of_alike fun _ _ => alike_ofItems items

/-- Four changes inside a repetition: a group is spliced into the group around it, an empty item
is dropped, two literals are merged, and the group of one item is taken away. -/
theorem regrouped_patterns_interchangeable_repetition
    : let p : Pattern := .group [.literal ['a'],
        .atLeast (.group [.group [.literal ['b'], .empty], .literal ['c']]) 2]
      let q : Pattern := .group [.literal ['a'], .atLeast (.literal ['b', 'c']) 2]
      let m : Matcher := ⟨Expression.anchored p, Expression.expression p⟩
      let n : Matcher := ⟨Expression.anchored q, Expression.expression q⟩
      Relation.EqvGen Regroups p q ∧ p.Interchangeable q ∧ p.matcher? = .ok m
        ∧ q.matcher? = .ok n ∧ ∀ text, m.test text = n.test text := by
  intro p q m n
  have inside {body other : Pattern} (h : Regroups body other)
      : Regroups (.group [.literal ['a'], .atLeast body 2])
          (.group [.literal ['a'], .atLeast other 2]) :=
    .items (.later _ (.here (.body h 2) []))
  have spliced := inside (.items (.splice [.literal ['b'], .empty] [.literal ['c']]))
  have dropped := inside (.items (.later (.literal ['b']) (.dropEmpty [.literal ['c']])))
  have merged := inside (.items (.merge ['b'] ['c'] []))
  have alone := inside (.single (.literal ['b', 'c']))
  have changed : Relation.EqvGen Regroups p q :=
    .trans _ _ _ (.rel _ _ spliced) (.trans _ _ _ (.rel _ _ dropped)
      (.trans _ _ _ (.rel _ _ merged) (.rel _ _ alone)))
  have same := regrouped_patterns_interchangeable.1 p q changed
  have compiledM : p.matcher? = .ok m := matcher?_eq_ok_iff.mpr ⟨rfl, by decide +kernel, rfl⟩
  have compiledN : q.matcher? = .ok n := matcher?_eq_ok_iff.mpr ⟨rfl, by decide +kernel, rfl⟩
  exact ⟨changed, same, compiledM, compiledN, same.accepted m n compiledM compiledN⟩

end Wildcard.Pattern
