import Wildcard.Pattern.Language

/-! Texts in a row, and what a repetition matches.
A row is a list of parts, each of which is matched, and a repetition asks for no more of the list
than a least length.
-/

namespace Wildcard.Pattern

variable {P Q : List Char → Prop} {count : Nat} {text : List Char}

/-- A row of so many texts or more is the concatenation of a list that is long enough. -/
theorem inARow_iff
    : InARow P count text
      ↔ ∃ parts : List (List Char), count ≤ parts.length
          ∧ (∀ part ∈ parts, P part) ∧ text = parts.flatten := by
  refine ⟨?_, ?_⟩
  · intro row
    induction row with
    | done => exact ⟨[], Nat.le_refl 0, nofun, rfl⟩
    | @more count first rest here _ ih =>
        obtain ⟨parts, hcount, matched, rfl⟩ := ih
        refine ⟨first :: parts, ?_, ?_, rfl⟩
        · rw [List.length_cons]
          omega
        · exact List.forall_mem_cons.mpr ⟨here, matched⟩
  · intro row
    rcases row with ⟨parts, hcount, matched, rfl⟩
    induction parts generalizing count with
    | nil =>
        have none : count = 0 := Nat.le_zero.mp hcount
        exact none ▸ .done
    | cons part parts ih =>
        have ⟨here, after⟩ := List.forall_mem_cons.mp matched
        refine .more here (ih ?_ after)
        rw [List.length_cons] at hcount
        omega

/-- A repetition matches the texts that a long enough list of matched parts makes up. -/
theorem matches_atLeast_iff {body : Pattern}
    : (Pattern.atLeast body count).Matches text
      ↔ ∃ parts : List (List Char), count ≤ parts.length
          ∧ (∀ part ∈ parts, body.Matches part) ∧ text = parts.flatten :=
  inARow_iff

/-- Any text is a row of single characters. -/
theorem matches_anyString (text : List Char)
    : anyString.Matches text := by
  refine matches_atLeast_iff.mpr ⟨text.map fun c => [c], Nat.zero_le _, ?_, ?_⟩
  · intro part member
    obtain ⟨c, -, rfl⟩ := List.mem_map.mp member
    exact ⟨c, rfl⟩
  · induction text with
    | nil => rfl
    | cons c text ih => exact congrArg (c :: ·) ih

-----------------------------------------------------------------------------------------
-- Items in front
-----------------------------------------------------------------------------------------

variable {items : List Pattern}

theorem matchesAll_cons_literal {chars : List Char}
    : MatchesAll (.literal chars :: items) text
      ↔ ∃ rest, text = chars ++ rest ∧ MatchesAll items rest := by
  refine ⟨?_, ?_⟩
  · intro matched
    rcases matched with ⟨_, rest, rfl, rfl, matched⟩
    exact ⟨rest, rfl, matched⟩
  · intro matched
    rcases matched with ⟨rest, rfl, matched⟩
    exact ⟨chars, rest, rfl, rfl, matched⟩

theorem matchesAll_cons_anyString
    : MatchesAll (anyString :: items) text
      ↔ ∃ skipped rest, text = skipped ++ rest ∧ MatchesAll items rest := by
  simp only [MatchesAll, matches_anyString, true_and]

theorem matchesAll_cons_anyChar
    : MatchesAll (.anyChar :: items) text
      ↔ ∃ c rest, text = c :: rest ∧ MatchesAll items rest := by
  refine ⟨?_, ?_⟩
  · intro matched
    rcases matched with ⟨_, rest, rfl, ⟨c, rfl⟩, matched⟩
    exact ⟨c, rest, rfl, matched⟩
  · intro matched
    rcases matched with ⟨c, rest, rfl, matched⟩
    exact ⟨[c], rest, rfl, ⟨c, rfl⟩, matched⟩

theorem matchesAll_cons_oneOf {candidates : List Char}
    : MatchesAll (.oneOf candidates :: items) text
      ↔ ∃ c rest, text = c :: rest ∧ c ∈ candidates ∧ MatchesAll items rest := by
  refine ⟨?_, ?_⟩
  · intro matched
    rcases matched with ⟨_, rest, rfl, ⟨c, member, rfl⟩, matched⟩
    exact ⟨c, rest, rfl, member, matched⟩
  · intro matched
    rcases matched with ⟨c, rest, rfl, member, matched⟩
    exact ⟨[c], rest, rfl, ⟨c, member, rfl⟩, matched⟩

/-- Items match as one pattern what they match in order. -/
theorem matches_ofItems
    : (ofItems items).Matches text ↔ MatchesAll items text := by
  match items with
  | [] => exact Iff.rfl
  | [item] =>
      simp only [ofItems, MatchesAll]
      refine ⟨?_, ?_⟩
      · intro matched
        exact ⟨text, [], (List.append_nil text).symm, matched, rfl⟩
      · intro matched
        rcases matched with ⟨_, _, rfl, matched, rfl⟩
        simpa only [List.append_nil] using matched
  | _ :: _ :: _ => exact Iff.rfl

end Wildcard.Pattern
