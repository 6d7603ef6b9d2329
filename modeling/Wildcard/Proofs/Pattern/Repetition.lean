import Wildcard.Proofs.Pattern.Bound
import Wildcard.Proofs.Render.Coverage

/-! What may follow the copies in a repetition.
A matcher takes all that follows the copies for further copies, while a repetition that is written
as a wildcard has any text behind its copies. The first is a case of the second, and the two are one
where the body matches every single character.
-/

namespace Wildcard.Pattern

variable {P Q R : List Char → Prop} {count : Nat} {text : List Char}

-----------------------------------------------------------------------------------------
-- Copies before a text
-----------------------------------------------------------------------------------------

theorem joined_assoc
    : Joined (Joined P Q) R = Joined P (Joined Q R) := by
  funext text
  refine propext ⟨?_, ?_⟩
  · intro joined
    rcases joined with ⟨_, last, rfl, ⟨first, next, rfl, here, after⟩, behind⟩
    exact ⟨first, next ++ last, List.append_assoc first next last, here, next, last, rfl, after,
      behind⟩
  · intro joined
    rcases joined with ⟨first, _, rfl, here, next, last, rfl, after, behind⟩
    exact ⟨first ++ next, last, (List.append_assoc first next last).symm,
      ⟨first, next, rfl, here, after⟩, behind⟩

theorem joined_nil
    : Joined P (fun rest => rest = []) = P := by
  funext text
  refine propext ⟨?_, ?_⟩
  · intro joined
    rcases joined with ⟨first, _, rfl, here, rfl⟩
    rwa [List.append_nil]
  · intro here
    exact ⟨text, [], (List.append_nil text).symm, here, rfl⟩

theorem nil_joined
    : Joined (fun first => first = []) Q = Q := by
  funext text
  refine propext ⟨?_, ?_⟩
  · intro joined
    rcases joined with ⟨_, rest, rfl, rfl, after⟩
    exact after
  · intro after
    exact ⟨[], text, rfl, rfl, after⟩

/-- So many texts that satisfy `P`, before a text that satisfies `Q`. -/
def CopiesBefore (P Q : List Char → Prop) (count : Nat) (text : List Char) : Prop :=
  ∃ (copies : List (List Char)) (tail : List Char),
    copies.length = count ∧ (∀ copy ∈ copies, P copy) ∧ Q tail ∧ text = copies.flatten ++ tail

theorem copiesBefore_zero
    : CopiesBefore P Q 0 = Q := by
  funext text
  refine propext ⟨?_, ?_⟩
  · intro copied
    rcases copied with ⟨copies, tail, none, -, after, rfl⟩
    rwa [List.length_eq_zero_iff.mp none]
  · intro after
    exact ⟨[], text, rfl, nofun, after, rfl⟩

theorem copiesBefore_succ
    : CopiesBefore P Q (count + 1) = Joined P (CopiesBefore P Q count) := by
  funext text
  refine propext ⟨?_, ?_⟩
  · intro copied
    rcases copied with ⟨copies, tail, more, matched, after, rfl⟩
    obtain ⟨copy, copies, rfl⟩ := List.exists_cons_of_length_eq_add_one more
    obtain ⟨here, others⟩ := List.forall_mem_cons.mp matched
    refine ⟨copy, copies.flatten ++ tail, ?_, here, copies, tail, ?_, others, after, rfl⟩
    · rw [List.flatten_cons, List.append_assoc]
    · exact Nat.succ_inj.mp more
  · intro joined
    rcases joined with ⟨copy, _, rfl, here, copies, tail, rfl, others, after, rfl⟩
    refine ⟨copy :: copies, tail, rfl, List.forall_mem_cons.mpr ⟨here, others⟩, after, ?_⟩
    rw [List.flatten_cons, List.append_assoc]

theorem CopiesBefore.mono {P' Q' : List Char → Prop} (h : CopiesBefore P Q count text)
    (copy : ∀ text, P text → P' text) (tail : ∀ text, Q text → Q' text)
    : CopiesBefore P' Q' count text := by
  obtain ⟨copies, rest, length, matched, after, rfl⟩ := h
  exact ⟨copies, rest, length, fun part member => copy part (matched part member), tail rest after,
    rfl⟩

/-- What is joined to copies stands behind all of them, by induction on their number. -/
theorem joined_copiesBefore
    : Joined (CopiesBefore P Q count) R = CopiesBefore P (Joined Q R) count := by
  induction count with
  | zero => rw [copiesBefore_zero, copiesBefore_zero]
  | succ count ih => rw [copiesBefore_succ, joined_assoc, ih, copiesBefore_succ]

/-- A row begins with the copies that it needs, and the rest is a row of any length, by induction on
their number. -/
theorem inARow_eq_copiesBefore (count : Nat)
    : InARow P count = CopiesBefore P (InARow P 0) count := by
  induction count with
  | zero => rw [copiesBefore_zero]
  | succ count ih => rw [inARow_succ, ih, copiesBefore_succ]

/-- Every text is a row of copies if every single character is a copy. -/
theorem inARow_zero_of_singletons (single : ∀ c, P [c]) (text : List Char)
    : InARow P 0 text := by
  induction text with
  | nil => exact .done
  | cons c text ih => exact .more (single c) ih

-----------------------------------------------------------------------------------------
-- Repetitions in a matcher
-----------------------------------------------------------------------------------------

/-- A repetition that is not refused repeats the body as often as it was asked for. -/
theorem eq_atLeast_of_atLeast? {body p : Pattern} {times : Int} (h : body.atLeast? times = .ok p)
    : 0 ≤ times ∧ p = .atLeast body times.toNat := by
  by_cases outOfRange : times < 0 ∨ Text.maxCount < times
  · rw [atLeast?, if_pos outOfRange] at h
    exact absurd h nofun
  · refine ⟨by omega, ?_⟩
    rw [atLeast?, if_neg outOfRange] at h
    split at h
    · obtain ⟨bound, -, h⟩ := exists_of_bind_eq_ok h
      dsimp only at h
      split at h
      · cases h
        rfl
      · exact absurd h nofun
    · cases h
      rfl

/-- A repetition as it is documented: the copies that were asked for, and then any text. -/
def CopiesThenAnything (body : Pattern) (times : Int) : List Char → Prop :=
  CopiesBefore body.Matches (fun _ => True) times.toNat

/-- The matcher of a repetition accepts the copies that were asked for before a text that is made up
of further copies. All of that is copies before any text, and nothing is missing if the body matches
every single character. -/
theorem test_atLeast {body p : Pattern} {times : Int} {m : Matcher}
    (h : body.atLeast? times = .ok p) (hm : p.matcher? = .ok m) (text : List Char)
    : (m.test text = true
        ↔ CopiesBefore body.Matches (Pattern.atLeast body 0).Matches times.toNat text)
      ∧ (m.test text = true → body.CopiesThenAnything times text)
      ∧ ((∀ c, body.Matches [c]) → (m.test text = true ↔ body.CopiesThenAnything times text)) := by
  obtain ⟨-, rfl⟩ := eq_atLeast_of_atLeast? h
  have accepted : m.test text = true
      ↔ CopiesBefore body.Matches (Pattern.atLeast body 0).Matches times.toNat text := by
    rw [test_iff_matches hm]
    exact iff_of_eq (congrFun (inARow_eq_copiesBefore times.toNat) text)
  have documented (test : m.test text = true) : body.CopiesThenAnything times text :=
    (accepted.mp test).mono (fun _ => id) fun _ _ => trivial
  refine ⟨accepted, documented, ?_⟩
  intro single
  refine ⟨documented, ?_⟩
  intro copied
  exact accepted.mpr
    (copied.mono (fun _ => id) fun tail _ => inARow_zero_of_singletons single tail)

/-- A class of two characters, repeated once more than it was asked for. -/
theorem test_atLeast_class
    : let body : Pattern := .oneOf ['a', 'b']
      let p : Pattern := .atLeast body 2
      let m : Matcher := ⟨Expression.anchored p, Expression.expression p⟩
      body.atLeast? 2 = .ok p ∧ p.matcher? = .ok m ∧ m.test ['a', 'b', 'a'] = true
        ∧ body.CopiesThenAnything 2 ['a', 'b', 'a'] := by
  intro body p m
  have repeated : body.atLeast? 2 = .ok p := rfl
  have compiled : p.matcher? = .ok m := matcher?_eq_ok_iff.mpr ⟨rfl, by decide +kernel, rfl⟩
  have accepted : m.test ['a', 'b', 'a'] = true := by decide +kernel
  exact ⟨repeated, compiled, accepted, (test_atLeast repeated compiled _).2.1 accepted⟩

/-- What follows the only copy is no further copy, so the matcher refuses it, and yet it is some
text. -/
theorem test_atLeast_refuses_tail
    : let body : Pattern := .literal ['a', 'b']
      let p : Pattern := .atLeast body 1
      let m : Matcher := ⟨Expression.anchored p, Expression.expression p⟩
      body.atLeast? 1 = .ok p ∧ p.matcher? = .ok m
        ∧ body.CopiesThenAnything 1 ['a', 'b', 'c'] ∧ m.test ['a', 'b', 'c'] = false := by
  intro body p m
  have compiled : p.matcher? = .ok m := matcher?_eq_ok_iff.mpr ⟨rfl, by decide +kernel, rfl⟩
  have copied : body.CopiesThenAnything 1 ['a', 'b', 'c'] :=
    ⟨[['a', 'b']], ['c'], rfl, by simp [body, Matches], trivial, rfl⟩
  exact ⟨rfl, compiled, copied, by decide +kernel⟩

-----------------------------------------------------------------------------------------
-- Repetitions in a wildcard
-----------------------------------------------------------------------------------------

mutual

/-- What a pattern matches where any text may follow the copies in a repetition. -/
def MatchesOpen : Pattern → List Char → Prop
  | .empty, text => text = []
  | .anyChar, text => ∃ c, text = [c]
  | .literal chars, text => text = chars
  | .oneOf candidates, text => ∃ c ∈ candidates, text = [c]
  | .group items, text => MatchesAllOpen items text
  | .atLeast body count, text => CopiesBefore (MatchesOpen body) (fun _ => True) count text

def MatchesAllOpen : List Pattern → List Char → Prop
  | [], text => text = []
  | item :: items, text => Joined (MatchesOpen item) (MatchesAllOpen items) text

end

mutual

/-- All that a pattern matches it matches with open repetitions, by induction on the pattern. -/
theorem matchesOpen_of_matches (p : Pattern) {text : List Char} (matched : p.Matches text)
    : p.MatchesOpen text := by
  cases p with
  | empty | anyChar | literal | oneOf => exact matched
  | group items => exact matchesAllOpen_of_matchesAll items matched
  | atLeast body count =>
      rw [Matches, inARow_eq_copiesBefore] at matched
      exact matched.mono (fun _ => matchesOpen_of_matches body) fun _ _ => trivial

theorem matchesAllOpen_of_matchesAll (items : List Pattern) {text : List Char}
    (matched : MatchesAll items text)
    : MatchesAllOpen items text := by
  cases items with
  | nil => exact matched
  | cons item items =>
      obtain ⟨first, rest, rfl, here, after⟩ := matched
      exact ⟨first, rest, rfl, matchesOpen_of_matches item here,
        matchesAllOpen_of_matchesAll items after⟩

end

end Wildcard.Pattern

namespace Wildcard.Spelling

open Pattern (CopiesBefore MatchesAllOpen)

variable {sp : Spelling} {M : List Token → List Char → Prop} {rest : List Token}

/-- Copies of the tokens of a body match copies of what the body matches, by induction on their
number. -/
theorem Reading.repeat_eq_copiesBefore {P : List Char → Prop} {before : List Token → List Token}
    (hbody : ∀ rest, M (before rest) = Pattern.Joined P (M rest)) (count : Nat)
    : M (Nat.repeat before count rest) = CopiesBefore P (M rest) count := by
  induction count with
  | zero => rw [Pattern.copiesBefore_zero, Nat.repeat]
  | succ count ih => rw [Nat.repeat, hbody, ih, Pattern.copiesBefore_succ]

/-- An operator for any text matches as much as it likes. -/
theorem Reading.anyString_eq_joined (h : sp.Reading M)
    : M (.operator sp.anyString :: rest) = Pattern.Joined (fun _ => True) (M rest) := by
  funext text
  rw [h.anyString]
  simp only [Pattern.Joined, true_and]

mutual

/-- The tokens of a pattern match what it matches with open repetitions, before what the tokens
after them match, by induction on the pattern. -/
theorem Reading.tokens_eq_joined (h : sp.Reading M) (p : Pattern)
    (spelled : sp.brackets.isSome ∨ p.everyNode Pattern.isNotChoice) (rest : List Token)
    : M (tokens sp p rest) = Pattern.Joined p.MatchesOpen (M rest) := by
  cases p with
  | empty => exact Pattern.nil_joined.symm
  | anyChar =>
      funext text
      refine propext ((h.anyChar rest text).trans ⟨?_, ?_⟩)
      · intro matched
        rcases matched with ⟨c, more, rfl, after⟩
        exact ⟨[c], more, rfl, ⟨c, rfl⟩, after⟩
      · intro joined
        rcases joined with ⟨_, more, rfl, ⟨c, rfl⟩, after⟩
        exact ⟨c, more, rfl, after⟩
  | literal chars =>
      funext text
      refine propext ((h.literal chars rest text).trans ⟨?_, ?_⟩)
      · intro matched
        rcases matched with ⟨more, rfl, after⟩
        exact ⟨chars, more, rfl, rfl, after⟩
      · intro joined
        rcases joined with ⟨_, more, rfl, rfl, after⟩
        exact ⟨more, rfl, after⟩
  | oneOf candidates =>
      obtain ⟨⟨opening, closing⟩, hbrackets⟩ :=
        Option.isSome_iff_exists.mp (spelled.resolve_right nofun)
      simp only [tokens, hbrackets]
      funext text
      refine propext ((h.choice opening closing hbrackets candidates rest text).trans ⟨?_, ?_⟩)
      · intro matched
        rcases matched with ⟨c, more, rfl, member, after⟩
        exact ⟨[c], more, rfl, ⟨c, member, rfl⟩, after⟩
      · intro joined
        rcases joined with ⟨_, more, rfl, ⟨c, member, rfl⟩, after⟩
        exact ⟨c, more, rfl, member, after⟩
  | group items =>
      refine h.tokensAll_eq_joined items (spelled.imp_right ?_) rest
      intro noChoice
      exact (Bool.and_eq_true_iff.mp noChoice).2
  | atLeast body count =>
      have hbody := h.tokens_eq_joined body
        (spelled.imp_right fun noChoice => (Bool.and_eq_true_iff.mp noChoice).2)
      change M (Nat.repeat (tokens sp body) count (.operator sp.anyString :: rest))
        = Pattern.Joined (CopiesBefore body.MatchesOpen (fun _ => True) count) (M rest)
      rw [Reading.repeat_eq_copiesBefore hbody, h.anyString_eq_joined, Pattern.joined_copiesBefore]

theorem Reading.tokensAll_eq_joined (h : sp.Reading M) (items : List Pattern)
    (spelled : sp.brackets.isSome ∨ Pattern.everyNodeOfAll Pattern.isNotChoice items)
    (rest : List Token)
    : M (tokensAll sp items rest) = Pattern.Joined (MatchesAllOpen items) (M rest) := by
  cases items with
  | nil => exact Pattern.nil_joined.symm
  | cons item items =>
      have here := h.tokens_eq_joined item
        (spelled.imp_right fun noChoice => (Bool.and_eq_true_iff.mp noChoice).1)
      have after := h.tokensAll_eq_joined items
        (spelled.imp_right fun noChoice => (Bool.and_eq_true_iff.mp noChoice).2)
      change M (tokens sp item (tokensAll sp items rest))
        = Pattern.Joined (Pattern.Joined item.MatchesOpen (MatchesAllOpen items)) (M rest)
      rw [here, after, Pattern.joined_assoc]

end

/-- What is read back from the rendered text of a pattern matches what the pattern matches with open
repetitions. -/
theorem Reading.matchesOpen_of_render (h : sp.Reading M) {a : Alphabet} {escape : Char}
    {extra : List Char} {p : Pattern} {source text : List Char}
    (reads : sp.ReadBy (Escaping.ofOperators sp.operators (some escape) extra) a escape)
    (hp : p.render (sp.renderer escape extra) = .ok source)
    (spelled : sp.brackets.isSome ∨ p.everyNode Pattern.isNotChoice)
    : M (a.tokenize source) text ↔ p.MatchesOpen text := by
  have done : M [] = fun rest => rest = [] := by
    funext text
    exact propext (h.done text)
  rw [reads.tokenize_render hp, h.tokens_eq_joined p spelled, done, Pattern.joined_nil]

end Wildcard.Spelling

namespace Wildcard.Pattern

/-- A pattern that is written as a wildcard and read back with the same escape is matched with open
repetitions, all the way down. So is one that is written as an SQL92 expression, if it is free of
choices. -/
theorem test_rendered_iff_matchesOpen (p : Pattern) (escape : Char) (extra : List Char)
    : (escape ∉ ['*', '?', '[', ']'] →
        ∀ source, p.render (Unix.spelling.renderer escape extra) = .ok source →
          ∀ m, (Unix.parse (Unix.alphabet (some escape)) source).matcher? = .ok m →
            ∀ text, m.test text = true ↔ p.MatchesOpen text)
      ∧ (escape ∉ ['%', '_'] → p.everyNode isNotChoice →
          ∀ source, p.render (Sql92.spelling.renderer escape extra) = .ok source →
            ∀ q m, Sql92.parse (some escape) source = .ok q → q.matcher? = .ok m →
              ∀ text, m.test text = true ↔ p.MatchesOpen text) := by
  refine ⟨?_, ?_⟩
  · intro hescape source hsource m hm text
    rw [test_iff_matches hm, Unix.matches_parse]
    exact Unix.reading.matchesOpen_of_render (Unix.readBy_alphabet hescape extra) hsource (.inl rfl)
  · intro hescape noChoice source hsource q m hq hm text
    rw [test_iff_matches hm, Sql92.matches_of_parse hq]
    exact Sql92.reading.matchesOpen_of_render (Sql92.readBy_alphabet hescape extra) hsource
      (.inr noChoice)

end Wildcard.Pattern
