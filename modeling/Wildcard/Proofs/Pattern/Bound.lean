import Wildcard.Pattern.Bound
import Wildcard.Proofs.Pattern.Matching
import Wildcard.Proofs.Text.ByteOrder

/-! Lower bounds of patterns.
No text that a pattern matches comes before its bound, and some matched text begins with the bound
if any text is matched at all. A bound grows over the simple items of a group and is closed by the
first item that is not simple.
-/

namespace Wildcard.Pattern

/-- No accepted text comes before the bound, and the bound begins an accepted text if there is
any. -/
structure IsBound (accepts : List Char → Prop) (bound : List Char) : Prop where
  sound : ∀ text, accepts text → ¬ Text.Precedes text bound
  attained : (∃ text, accepts text) → ∃ text, accepts text ∧ bound <+: text

/-- A text of one kind before a text of another. -/
def Joined (P Q : List Char → Prop) (text : List Char) : Prop :=
  ∃ first rest, text = first ++ rest ∧ P first ∧ Q rest

variable {P Q : List Char → Prop} {bound start : List Char} {count : Nat}

theorem inARow_succ
    : InARow P (count + 1) = Joined P (InARow P count) := by
  funext text
  refine propext ⟨?_, ?_⟩
  · intro row
    cases row with
    | more here next => exact ⟨_, _, rfl, here, next⟩
  · intro joined
    rcases joined with ⟨first, rest, rfl, here, next⟩
    exact .more here next

-----------------------------------------------------------------------------------------
-- Building bounds
-----------------------------------------------------------------------------------------

theorem IsBound.nil
    : IsBound P [] where
  sound text _ := Text.not_precedes_nil text
  attained := by
    intro accepted
    rcases accepted with ⟨text, accepted⟩
    exact ⟨text, accepted, List.nil_prefix⟩

/-- A single accepted text is its own bound. -/
theorem IsBound.of_iff_eq (h : ∀ text, P text ↔ text = bound)
    : IsBound P bound where
  sound := by
    intro text accepted
    rw [(h text).mp accepted]
    exact Text.not_precedes_self bound
  attained _ := ⟨bound, (h bound).mpr rfl, List.prefix_rfl⟩

/-- What follows does not lower a bound. -/
theorem IsBound.before (h : IsBound P bound)
    : IsBound (Joined P Q) bound where
  sound := by
    intro text accepted
    obtain ⟨first, rest, rfl, here, -⟩ := accepted
    exact Text.not_precedes_append (h.sound first here) rest
  attained := by
    intro accepted
    rcases accepted with ⟨_, first, rest, rfl, here, after⟩
    obtain ⟨reached, here, begins⟩ := h.attained ⟨first, here⟩
    exact ⟨reached ++ rest, ⟨reached, rest, rfl, here, after⟩,
      begins.trans (List.prefix_append reached rest)⟩

/-- A bound is continued after a fixed text. -/
theorem IsBound.after (h : IsBound Q bound) (fixed : ∀ text, P text ↔ text = start)
    : IsBound (Joined P Q) (start ++ bound) where
  sound := by
    intro text accepted
    obtain ⟨first, rest, rfl, here, after⟩ := accepted
    rw [(fixed first).mp here]
    exact Text.not_precedes_append_left (h.sound rest after) start
  attained := by
    intro accepted
    rcases accepted with ⟨_, first, rest, rfl, -, after⟩
    obtain ⟨reached, after, begins⟩ := h.attained ⟨rest, after⟩
    exact ⟨start ++ reached, ⟨start, reached, rfl, (fixed start).mpr rfl, after⟩,
      (List.prefix_append_right_inj start).mpr begins⟩

/-- A fixed text is repeated in the bound, by induction on the count. -/
theorem IsBound.repeated (fixed : ∀ text, P text ↔ text = start) (count : Nat)
    : IsBound (InARow P count) (Text.repeated count start) := by
  rw [Text.repeated_eq_flatten]
  induction count with
  | zero => exact .nil
  | succ count ih =>
      rw [inARow_succ, List.replicate_succ, List.flatten_cons]
      exact ih.after fixed

-----------------------------------------------------------------------------------------
-- Choices
-----------------------------------------------------------------------------------------

theorem least?_eq_none {chars : List Char} (h : least? chars = none)
    : chars = [] := by
  cases chars with
  | nil => rfl
  | cons first chars =>
      rw [least?] at h
      split at h <;> exact absurd h nofun

/-- The least of some characters is one of them and none is smaller, by induction on the
characters. -/
theorem least?_eq_some {chars : List Char} {c : Char} (h : least? chars = some c)
    : c ∈ chars ∧ ∀ d ∈ chars, ¬ d < c := by
  induction chars generalizing c with
  | nil => exact absurd h nofun
  | cons first chars ih =>
      rw [least?] at h
      split at h
      · next hnone =>
          cases h
          rw [least?_eq_none hnone]
          refine ⟨List.mem_singleton_self first, ?_⟩
          intro d hd
          rw [List.mem_singleton.mp hd]
          exact Char.lt_irrefl first
      · next smallest hsome =>
          obtain ⟨member, least⟩ := ih hsome
          split at h
          · next smaller =>
              cases h
              refine ⟨List.mem_cons_of_mem first member, ?_⟩
              intro d hd
              rcases List.mem_cons.mp hd with rfl | hd
              · exact Char.lt_asymm smaller
              · exact least d hd
          · next notSmaller =>
              cases h
              refine ⟨List.mem_cons_self, ?_⟩
              intro d hd
              rcases List.mem_cons.mp hd with rfl | hd
              · exact Char.lt_irrefl d
              · exact fun smaller => least d hd (Std.lt_of_lt_of_le smaller (Char.not_lt.mp notSmaller))

/-- The least candidate bounds a choice. -/
theorem isBound_oneOf (candidates : List Char)
    : IsBound (Pattern.oneOf candidates).Matches (least? candidates).toList := by
  cases hleast : least? candidates with
  | none => exact .nil
  | some c =>
      obtain ⟨member, least⟩ := least?_eq_some hleast
      refine ⟨?_, fun _ => ⟨[c], ⟨c, member, rfl⟩, List.prefix_rfl⟩⟩
      intro text accepted
      obtain ⟨d, hd, rfl⟩ := accepted
      rw [Text.precedes_iff_lex, Option.toList, List.cons_lex_cons_iff]
      intro before
      rcases before with smaller | ⟨-, later⟩
      · exact least d hd smaller
      · exact List.not_lex_nil later

-----------------------------------------------------------------------------------------
-- Bounds of patterns
-----------------------------------------------------------------------------------------

mutual

/-- A simple pattern matches its bound and nothing else, by induction on the pattern. -/
theorem matches_iff_eq_lowerBound (p : Pattern) (simple : p.isSimple)
    : ∃ bound, p.lowerBound = .ok bound ∧ ∀ text, p.Matches text ↔ text = bound := by
  cases p with
  | empty => exact ⟨[], rfl, fun _ => Iff.rfl⟩
  | literal chars => exact ⟨chars, rfl, fun _ => Iff.rfl⟩
  | group items => exact matchesAll_iff_eq_boundOfItems items simple
  | anyChar | oneOf | atLeast => exact absurd simple nofun

theorem matchesAll_iff_eq_boundOfItems (items : List Pattern) (simple : allSimple items)
    : ∃ bound, boundOfItems items = .ok bound ∧ ∀ text, MatchesAll items text ↔ text = bound := by
  cases items with
  | nil => exact ⟨[], rfl, fun _ => Iff.rfl⟩
  | cons item items =>
      rw [allSimple, Bool.and_eq_true] at simple
      obtain ⟨first, hfirst, here⟩ := matches_iff_eq_lowerBound item simple.1
      obtain ⟨rest, hrest, after⟩ := matchesAll_iff_eq_boundOfItems items simple.2
      refine ⟨first ++ rest, ?_, ?_⟩
      · rw [boundOfItems, hfirst, hrest, simple.1]
        rfl
      · intro text
        simp only [MatchesAll, here, after]
        refine ⟨?_, ?_⟩
        · intro matched
          rcases matched with ⟨_, _, rfl, rfl, rfl⟩
          rfl
        · intro same
          exact ⟨first, rest, same, rfl, rfl⟩

end

mutual

/-- The lower bound of a pattern bounds what it matches, by induction on the pattern. -/
theorem isBound_lowerBound (p : Pattern) {bound : List Char} (h : p.lowerBound = .ok bound)
    : IsBound p.Matches bound := by
  cases p with
  | empty | anyChar =>
      cases h
      exact .nil
  | literal chars =>
      cases h
      exact .of_iff_eq fun _ => Iff.rfl
  | oneOf candidates =>
      cases h
      exact isBound_oneOf candidates
  | group items => exact isBound_boundOfItems items h
  | atLeast body count =>
      rw [lowerBound] at h
      split at h
      · next simple =>
          obtain ⟨fixed, hfixed, matched⟩ := matches_iff_eq_lowerBound body simple
          obtain ⟨inner, hinner, h⟩ := exists_of_bind_eq_ok h
          cases hinner.symm.trans hfixed
          rw [repeatBound] at h
          split at h
          · cases h
            exact .repeated matched count
          · exact absurd h nofun
      · split at h
        · cases h
          exact .nil
        · next positive =>
            obtain ⟨count, rfl⟩ := Nat.exists_eq_succ_of_ne_zero positive
            change IsBound (InARow body.Matches (count + 1)) bound
            rw [inARow_succ]
            exact (isBound_lowerBound body h).before

theorem isBound_boundOfItems (items : List Pattern) {bound : List Char}
    (h : boundOfItems items = .ok bound)
    : IsBound (MatchesAll items) bound := by
  cases items with
  | nil =>
      cases h
      exact .nil
  | cons item items =>
      change IsBound (Joined item.Matches (MatchesAll items)) bound
      rw [boundOfItems] at h
      obtain ⟨first, hitem, h⟩ := exists_of_bind_eq_ok h
      -- the items behind this one have a say only if it is a fixed text
      split at h
      · next simple =>
          obtain ⟨fixed, hfixed, matched⟩ := matches_iff_eq_lowerBound item simple
          obtain ⟨rest, hitems, h⟩ := exists_of_bind_eq_ok h
          cases hitem.symm.trans hfixed
          cases h
          exact (isBound_boundOfItems items hitems).after matched
      · cases h
        exact (isBound_lowerBound item hitem).before

end

/-- A lower bound bounds what its pattern matches, and so what the matcher of the pattern accepts:
nothing accepted comes before it, and it begins something accepted if anything is. The bound of a
simple pattern is all that it matches. -/
theorem lowerBound_bounds_accepted {p : Pattern} {bound : List Char}
    (h : p.lowerBound = .ok bound)
    : IsBound p.Matches bound
      ∧ (∀ m, p.matcher? = .ok m → IsBound (fun text => m.test text = true) bound)
      ∧ (p.isSimple → ∀ text, p.Matches text ↔ text = bound) := by
  have bounded := isBound_lowerBound p h
  refine ⟨bounded, ?_, ?_⟩
  · intro m compiled
    have accepted : (fun text => m.test text = true) = p.Matches := by
      funext text
      exact propext (test_iff_matches compiled text)
    rw [accepted]
    exact bounded
  · intro simple
    obtain ⟨fixed, hfixed, matched⟩ := matches_iff_eq_lowerBound p simple
    cases h.symm.trans hfixed
    exact matched

/-- A fixed text before a repetition that ends in a choice. -/
theorem lowerBound_bounds_repeated_choice
    : let p : Pattern := .group
        [.literal ['b', 'ü'], .atLeast (.group [.literal ['a'], .oneOf ['é', 'z']]) 2, .anyChar]
      let m : Matcher := ⟨Expression.anchored p, Expression.expression p⟩
      p.lowerBound = .ok ['b', 'ü', 'a', 'z'] ∧ p.matcher? = .ok m
        ∧ IsBound (fun text => m.test text = true) ['b', 'ü', 'a', 'z'] := by
  intro p m
  have bounded : p.lowerBound = .ok ['b', 'ü', 'a', 'z'] := rfl
  have compiled : p.matcher? = .ok m := matcher?_eq_ok_iff.mpr ⟨rfl, by decide +kernel, rfl⟩
  exact ⟨bounded, compiled, (lowerBound_bounds_accepted bounded).2.1 m compiled⟩

end Wildcard.Pattern
