import Wildcard.Pattern.Equality
import Wildcard.Proofs.Pattern.Grouping
import Wildcard.Proofs.Unix.Items

/-! Equality of patterns.
Patterns are equal if and only if they have the same canonical form, in which the candidates of
every choice stand in order and once each. Whatever does not show the candidates of a choice is the
same for a pattern and its canonical form. A wildcard shows them, so only what is read back from it
is compared, and that is equal again.
-/

namespace Wildcard

namespace CharSet

theorem ofList_chars (s : CharSet)
    : ofList s.chars = s :=
  ext_mem fun _ => mem_ofList

/-- Sets are the same if their members are listed alike. -/
theorem eq_iff_chars_eq {s t : CharSet}
    : s = t ↔ s.chars = t.chars := by
  refine ⟨congrArg chars, ?_⟩
  intro same
  rw [← ofList_chars s, same, ofList_chars]

end CharSet

namespace Pattern

mutual

/-- The pattern with the candidates of its choices in order and once each. -/
def canonical : Pattern → Pattern
  | .empty => .empty
  | .anyChar => .anyChar
  | .literal text => .literal text
  | .oneOf candidates => .oneOf (CharSet.ofList candidates).chars
  | .group items => .group (canonicalAll items)
  | .atLeast body count => .atLeast (canonical body) count

def canonicalAll : List Pattern → List Pattern
  | [] => []
  | item :: items => canonical item :: canonicalAll items

end

mutual

/-- Patterns are equal if their canonical forms are the same, by induction on the first. -/
theorem beq_iff_canonical_eq (p q : Pattern)
    : p.beq q ↔ p.canonical = q.canonical := by
  cases p with
  | empty | anyChar | literal => cases q <;> simp [beq, canonical]
  | oneOf candidates => cases q <;> simp [beq, canonical, CharSet.eq_iff_chars_eq]
  | group items => cases q <;> simp [beq, canonical, beqItems_iff_canonicalAll_eq items]
  | atLeast body count =>
      cases q <;> simp [beq, canonical, beq_iff_canonical_eq body, and_comm]

theorem beqItems_iff_canonicalAll_eq (items others : List Pattern)
    : beqItems items others ↔ canonicalAll items = canonicalAll others := by
  cases items with
  | nil => cases others <;> simp [beqItems, canonicalAll]
  | cons item items =>
      cases others with
      | nil => simp [beqItems, canonicalAll]
      | cons other others =>
          simp [beqItems, canonicalAll, beq_iff_canonical_eq item,
            beqItems_iff_canonicalAll_eq items]

end

variable {sp : Spelling} {e : Escaping} {f : List Token → List Pattern} {p q : Pattern}

theorem beq_iff
    : (p == q) = true ↔ p.canonical = q.canonical :=
  beq_iff_canonical_eq p q

-----------------------------------------------------------------------------------------
-- What does not show candidates
-----------------------------------------------------------------------------------------

/-- The least candidate does not depend on the order of the candidates. -/
theorem least?_ofList (candidates : List Char)
    : least? (CharSet.ofList candidates).chars = least? candidates := by
  have sameMembers (c : Char) : c ∈ (CharSet.ofList candidates).chars ↔ c ∈ candidates :=
    CharSet.mem_ofList
  cases hsorted : least? (CharSet.ofList candidates).chars with
  | none =>
      cases hleast : least? candidates with
      | none => rfl
      | some c =>
          have member := (sameMembers c).mpr (least?_eq_some hleast).1
          rw [least?_eq_none hsorted] at member
          exact absurd member List.not_mem_nil
  | some c =>
      obtain ⟨hc, leastSorted⟩ := least?_eq_some hsorted
      cases hleast : least? candidates with
      | none =>
          have member := (sameMembers c).mp hc
          rw [least?_eq_none hleast] at member
          exact absurd member List.not_mem_nil
      | some d =>
          obtain ⟨hd, least⟩ := least?_eq_some hleast
          have notLess : ¬ c < d := least c ((sameMembers c).mp hc)
          have notGreater : ¬ d < c := leastSorted d ((sameMembers d).mpr hd)
          rw [Char.le_antisymm (Char.not_lt.mp notGreater) (Char.not_lt.mp notLess)]

/-- In a language without brackets a choice is like the choice of its candidates in order. -/
theorem alike_oneOf_ofList (noBrackets : sp.brackets = none) (candidates : List Char)
    : Alike sp e (.oneOf candidates) (.oneOf (CharSet.ofList candidates).chars) where
  written := by
    rw [Spelling.written, Spelling.written, Spelling.choice, Spelling.choice, noBrackets]
  varying := rfl
  lowerBound := by rw [lowerBound, lowerBound, least?_ofList]
  matched := by
    funext text
    have sameMembers (c : Char) : c ∈ (CharSet.ofList candidates).chars ↔ c ∈ candidates :=
      CharSet.mem_ofList
    simp only [Matches, sameMembers]

mutual

/-- In a language without brackets a pattern is like its canonical form, by induction on the
pattern. -/
theorem alike_canonical (noBrackets : sp.brackets = none) (p : Pattern)
    : Alike sp e p p.canonical := by
  cases p with
  | empty | anyChar | literal => exact .refl _
  | oneOf candidates => exact alike_oneOf_ofList noBrackets candidates
  | group items => exact (alikeItems_canonicalAll noBrackets items).group
  | atLeast body count => exact (alike_canonical noBrackets body).atLeast count

theorem alikeItems_canonicalAll (noBrackets : sp.brackets = none) (items : List Pattern)
    : AlikeItems sp e items (canonicalAll items) := by
  cases items with
  | nil => exact .refl []
  | cons item items =>
      exact (alike_canonical noBrackets item).cons (alikeItems_canonicalAll noBrackets items)

end

/-- So equal patterns are alike. -/
theorem alike_of_beq (noBrackets : sp.brackets = none) (h : (p == q) = true)
    : Alike sp e p q := by
  have right : Alike sp e q q.canonical := alike_canonical noBrackets q
  rw [← beq_iff.mp h] at right
  exact (alike_canonical noBrackets p).trans right.symm

-----------------------------------------------------------------------------------------
-- What is read back
-----------------------------------------------------------------------------------------

/-- Tokens that are read as equal items, and of which both or neither begin with a run. -/
structure ReadAlike (f : List Token → List Pattern) (left right : List Token) : Prop where
  items : canonicalAll (f left) = canonicalAll (f right)
  begins : left.head?.any Token.isText = right.head?.any Token.isText

/-- A run that is the same on both sides may be taken away. -/
theorem ReadAlike.of_text (h : sp.Itemizes f) {first next : List Char} {left right : List Token}
    (alike : ReadAlike f (.text first :: left) (.text next :: right))
    : first = next ∧ canonicalAll (f left) = canonicalAll (f right) := by
  have same := alike.items
  rw [h.text, h.text] at same
  obtain ⟨here, behind⟩ := List.cons.inj same
  exact ⟨Pattern.literal.inj here, behind⟩

/-- A run in front is read as a literal on both sides. -/
theorem ReadAlike.text (h : sp.Itemizes f) (chars : List Char) {left right : List Token}
    (same : canonicalAll (f left) = canonicalAll (f right))
    : ReadAlike f (.text chars :: left) (.text chars :: right) where
  items := by rw [h.text, h.text, canonicalAll, canonicalAll, same]
  begins := rfl

/-- A character in front joins a run on both sides, or begins one on both. -/
theorem ReadAlike.prepend (h : sp.Itemizes f) {left right : List Token}
    (alike : ReadAlike f left right) (c : Char)
    : ReadAlike f (Token.prepend c left) (Token.prepend c right) := by
  have begins := alike.begins
  match left, right with
  | .text first :: left, .text next :: right =>
      obtain ⟨rfl, same⟩ := alike.of_text h
      exact .text h (c :: first) same
  | [], [] | [], .operator _ :: _ | .operator _ :: _, [] | .operator _ :: _, .operator _ :: _ =>
      exact .text h [c] alike.items
  | .text _ :: _, [] | .text _ :: _, .operator _ :: _ => exact absurd begins nofun
  | [], .text _ :: _ | .operator _ :: _, .text _ :: _ => exact absurd begins nofun

/-- A choice and its candidates in order are read as equal items. -/
theorem ReadAlike.oneOf (h : sp.Itemizes f) {left right : List Token}
    (alike : ReadAlike f left right) (candidates : List Char)
    : ReadAlike f (sp.tokens (.oneOf candidates) left)
        (sp.tokens (.oneOf (CharSet.ofList candidates).chars) right) := by
  rw [Spelling.tokens, Spelling.tokens]
  cases hbrackets : sp.brackets with
  | none => exact ⟨by rw [h.anyChar, h.anyChar, canonicalAll, canonicalAll, alike.items], rfl⟩
  | some brackets =>
      refine ⟨?_, rfl⟩
      dsimp only
      rw [h.choice brackets.1 brackets.2 hbrackets, h.choice brackets.1 brackets.2 hbrackets,
        canonicalAll, canonicalAll, canonical, canonical, CharSet.ofList_chars, alike.items]

mutual

/-- The tokens of a pattern are read as those of its canonical form, by induction on the
pattern. -/
theorem ReadAlike.tokens (h : sp.Itemizes f) (p : Pattern) {left right : List Token}
    (alike : ReadAlike f left right)
    : ReadAlike f (sp.tokens p left) (sp.tokens p.canonical right) := by
  cases p with
  | empty => exact alike
  | anyChar =>
      refine ⟨?_, rfl⟩
      rw [canonical, Spelling.tokens, Spelling.tokens, h.anyChar, h.anyChar, canonicalAll,
        canonicalAll, alike.items]
  | literal text =>
      change ReadAlike f (text.foldr Token.prepend left) (text.foldr Token.prepend right)
      induction text with
      | nil => exact alike
      | cons c text ih => exact ih.prepend h c
  | oneOf candidates => exact alike.oneOf h candidates
  | group items => exact alike.tokensAll h items
  | atLeast body count =>
      change ReadAlike f (Nat.repeat (sp.tokens body) count _)
        (Nat.repeat (sp.tokens body.canonical) count _)
      induction count with
      | zero =>
          refine ⟨?_, rfl⟩
          rw [Nat.repeat, Nat.repeat, h.anyString, h.anyString, canonicalAll, canonicalAll,
            alike.items]
      | succ count ih => exact ih.tokens h body

theorem ReadAlike.tokensAll (h : sp.Itemizes f) (items : List Pattern) {left right : List Token}
    (alike : ReadAlike f left right)
    : ReadAlike f (sp.tokensAll items left) (sp.tokensAll (canonicalAll items) right) := by
  cases items with
  | nil => exact alike
  | cons item items => exact (alike.tokensAll h items).tokens h item

end

@[simp]
theorem canonical_ofItems (items : List Pattern)
    : (ofItems items).canonical = ofItems (canonicalAll items) := by
  match items with
  | [] | [_] | _ :: _ :: _ => rfl

/-- What is read from the tokens of equal patterns is equal. -/
theorem ofItems_tokens_beq (h : sp.Itemizes f) (same : (p == q) = true)
    : (ofItems (f (sp.tokens p [])) == ofItems (f (sp.tokens q []))) = true := by
  have readCanonical (p : Pattern)
      : canonicalAll (f (sp.tokens p [])) = canonicalAll (f (sp.tokens p.canonical [])) :=
    (ReadAlike.tokens h p ⟨rfl, rfl⟩).items
  rw [beq_iff, canonical_ofItems, canonical_ofItems, readCanonical p, readCanonical q,
    beq_iff.mp same]

-----------------------------------------------------------------------------------------
-- What equal patterns have in common
-----------------------------------------------------------------------------------------

/-- Two patterns do the same wherever the order of candidates does not show, and are read back as
equal patterns from a wildcard, where it does. -/
structure BehavesAs (p q : Pattern) : Prop where
  isSimple : p.isSimple = q.isSimple
  lowerBound : p.lowerBound = q.lowerBound
  expression : ∀ escape extra, p.render (Sql92.spelling.renderer escape extra)
    = q.render (Sql92.spelling.renderer escape extra)
  fixed : ∀ escape extra,
    p.render (Fixed.renderer escape extra) = q.render (Fixed.renderer escape extra)
  accepted : ∀ m n, p.matcher? = .ok m → q.matcher? = .ok n → ∀ text, m.test text = n.test text
  wildcard : ∀ escape ∉ ['*', '?', '[', ']'], ∀ extra source other,
    p.render (Unix.spelling.renderer escape extra) = .ok source →
    q.render (Unix.spelling.renderer escape extra) = .ok other →
    (Unix.parse (Unix.alphabet (some escape)) source
      == Unix.parse (Unix.alphabet (some escape)) other) = true

theorem behavesAs_of_beq (h : (p == q) = true)
    : p.BehavesAs q := by
  have alike (e : Escaping) : Alike Sql92.spelling e p q := alike_of_beq rfl h
  have anyEscaping := alike Expression.escaping
  refine ⟨anyEscaping.isSimple, anyEscaping.lowerBound, ?_, anyEscaping.render_fixed,
    fun _ _ hm hn => anyEscaping.test_eq hm hn, ?_⟩
  · intro escape extra
    rw [Spelling.render_eq_written, Spelling.render_eq_written, (alike _).written]
  · intro escape hescape extra source other hp hq
    have reads := Unix.readBy_alphabet hescape extra
    have same := ofItems_tokens_beq Unix.itemizes h
    rwa [← reads.tokenize_render hp, ← reads.tokenize_render hq] at same

/-- Equality is an equivalence, and equal patterns do the same. -/
theorem equality_equivalence_respects_behaviour
    : (∀ p : Pattern, (p == p) = true)
      ∧ (∀ p q : Pattern, (p == q) = true → (q == p) = true)
      ∧ (∀ p q r : Pattern, (p == q) = true → (q == r) = true → (p == r) = true)
      ∧ ∀ p q : Pattern, (p == q) = true → p.BehavesAs q := by
  refine ⟨?_, ?_, ?_, ?_⟩
  · intro p
    exact beq_iff.mpr rfl
  · intro p q same
    exact beq_iff.mpr (beq_iff.mp same).symm
  · intro p q r first next
    exact beq_iff.mpr ((beq_iff.mp first).trans (beq_iff.mp next))
  · intro p q same
    exact behavesAs_of_beq same

/-- A choice inside of a repetition, with its candidates in another order and one of them twice. -/
theorem equality_equivalence_respects_behaviour_choice
    : let p : Pattern := .group [.literal ['a'], .atLeast (.oneOf ['c', 'b', 'c']) 2]
      let q : Pattern := .group [.literal ['a'], .atLeast (.oneOf ['b', 'c']) 2]
      let m : Matcher := ⟨Expression.anchored p, Expression.expression p⟩
      let n : Matcher := ⟨Expression.anchored q, Expression.expression q⟩
      let source : List Char := ['a', '[', 'c', 'b', 'c', ']', '[', 'c', 'b', 'c', ']', '*']
      let other : List Char := ['a', '[', 'b', 'c', ']', '[', 'b', 'c', ']', '*']
      (p == q) = true ∧ (q == p) = true ∧ (p == p) = true ∧ p.BehavesAs q
        ∧ p.matcher? = .ok m ∧ q.matcher? = .ok n ∧ (∀ text, m.test text = n.test text)
        ∧ p.render (Unix.spelling.renderer '\\' []) = .ok source
        ∧ q.render (Unix.spelling.renderer '\\' []) = .ok other
        ∧ (Unix.parse (Unix.alphabet (some '\\')) source
          == Unix.parse (Unix.alphabet (some '\\')) other) = true := by
  intro p q m n source other
  have same : (p == q) = true := by decide
  have compiledM : p.matcher? = .ok m := matcher?_eq_ok_iff.mpr ⟨rfl, by decide +kernel, rfl⟩
  have compiledN : q.matcher? = .ok n := matcher?_eq_ok_iff.mpr ⟨rfl, by decide +kernel, rfl⟩
  have asSource : p.render (Unix.spelling.renderer '\\' []) = .ok source := rfl
  have asOther : q.render (Unix.spelling.renderer '\\' []) = .ok other := rfl
  obtain ⟨-, symmetric, transitive, behaves⟩ := equality_equivalence_respects_behaviour
  have back := symmetric p q same
  have alike := behaves p q same
  exact ⟨same, back, transitive p q p same back, alike, compiledM, compiledN,
    alike.accepted m n compiledM compiledN, asSource, asOther,
    alike.wildcard '\\' (by decide) [] source other asSource asOther⟩

end Pattern

end Wildcard
