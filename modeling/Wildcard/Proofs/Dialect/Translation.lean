import Wildcard.Dialect
import Wildcard.Proofs.Sql92.Items
import Wildcard.Proofs.Unix.Items

/-! Patterns that go from one dialect to another.
A pattern is read in one dialect, written in the same dialect or another, and read there with the
same escape. Nothing that it matches is lost on the way, unless the escape is one of the wildcards
in what is written. Within one dialect that is harmless, as no wildcard that is also the escape was
read in the first place; only the bracket that closes a class needs none to be read.
-/

namespace Wildcard

open Pattern (MatchesAll)

-----------------------------------------------------------------------------------------
-- A class that nothing closes
-----------------------------------------------------------------------------------------

namespace Unix

variable {tokens rest : List Token} {item : Pattern} {written text : List Char}

/-- Without a closing operator all tokens are inside, by induction on them. -/
theorem enclosed_eq_nil_of_not_mem {close : Char} (h : Token.operator close ∉ tokens)
    : (enclosed close tokens).2 = [] := by
  induction tokens with
  | nil => rfl
  | cons token tokens ih =>
      have differs : token ≠ .operator close := fun same => h (same ▸ List.mem_cons_self)
      rw [enclosed, if_neg differs]
      exact ih (List.not_mem_of_not_mem_cons h)

/-- An item with a closing bracket is a class, and if nothing closes it, nothing follows it. -/
theorem eq_oneOf_of_close_mem (h : item? tokens = some (item, rest))
    (noClose : Token.operator ']' ∉ tokens) (closed : ']' ∈ spelling.wildcardsIn item)
    : ∃ candidates, item = .oneOf candidates ∧ rest = [] := by
  unfold item? at h
  split at h <;> simp only [reduceCtorEq, Option.some.injEq, Prod.mk.injEq] at h
  all_goals obtain ⟨rfl, rfl⟩ := h
  · exact absurd closed List.not_mem_nil
  · exact absurd closed (by decide)
  · exact absurd closed (by decide)
  · exact ⟨_, rfl, enclosed_eq_nil_of_not_mem (List.not_mem_of_not_mem_cons noClose)⟩
  · exact absurd closed List.not_mem_nil

theorem knownBy_alphabet (escape : Char) (extra : List Char)
    : spelling.KnownBy (Escaping.ofOperators operators (some escape) extra)
        (alphabet (some escape)) escape :=
  Spelling.knownBy_alphabet (by decide) escape extra

/-- A class whose closing bracket is read as an escape runs to the end of the text, with the bracket
as one more candidate. -/
theorem tokensMatch_choice_unclosed (extra : List Char) {candidates : List Char} {c : Char}
    (member : c ∈ candidates)
    : TokensMatch ((alphabet (some ']')).tokenize
        (spelling.choice (Escaping.ofOperators operators (some ']') extra) candidates)) [c] := by
  have known := knownBy_alphabet ']' extra
  have escaping : (alphabet (some ']')).isEscape ']' = true := rfl
  change TokensMatch ((alphabet (some ']')).tokenize
    ('[' :: (Escaping.ofOperators operators (some ']') extra).apply candidates ++ [']'])) [c]
  rw [List.cons_append, known.tokenize_wildcard (by decide) (by decide),
    known.escaped.tokenize_apply, Alphabet.tokenize_singleton_of_isEscape escaping,
    tokensMatch_opening, enclosed_foldr_prepend]
  exact ⟨c, [], rfl, List.mem_append_left _ member, tokensMatch_nil.mpr rfl⟩

/-- What is written for the items of tokens that close no class is read with the closing bracket as
an escape and still matches what the items match, by induction on the items. -/
theorem tokensMatch_written_unclosed (extra : List Char) (noClose : Token.operator ']' ∉ tokens)
    (hwritten : Spelling.writtenAll spelling (Escaping.ofOperators operators (some ']') extra)
      (items tokens).1 = .ok written)
    (matched : MatchesAll (items tokens).1 text)
    : TokensMatch ((alphabet (some ']')).tokenize written) text := by
  fun_induction items tokens generalizing written text with
  | case1 =>
      cases hwritten
      exact tokensMatch_nil.mpr matched
  | case2 tokens item rest hitem more unread hrest ih =>
      rw [hrest] at ih
      obtain ⟨first, hfirst, hwritten⟩ := exists_of_bind_eq_ok hwritten
      obtain ⟨others, hothers, hwritten⟩ := exists_of_bind_eq_ok hwritten
      cases hwritten
      obtain ⟨here, there, rfl, matchedHere, matchedThere⟩ := matched
      by_cases closed : ']' ∈ spelling.wildcardsIn item
      · obtain ⟨candidates, rfl, rfl⟩ := eq_oneOf_of_close_mem hitem noClose closed
        rw [items_of_item?_eq_none rfl] at hrest
        cases hrest
        cases hothers
        cases hfirst
        cases matchedThere
        obtain ⟨c, member, rfl⟩ := matchedHere
        rw [List.append_nil]
        exact tokensMatch_choice_unclosed extra member
      · have noCloseAfter : Token.operator ']' ∉ rest :=
          fun member => noClose ((suffix_of_item? hitem).subset member)
        rw [(knownBy_alphabet ']' extra).tokenize_written item hfirst closed]
        exact reading.covers item matchedHere (ih noCloseAfter hothers matchedThere)

end Unix

theorem Sql92.knownBy_alphabet (escape : Char) (extra : List Char)
    : spelling.KnownBy (Escaping.ofOperators operators (some escape) extra)
        (alphabet (some escape)) escape :=
  Spelling.knownBy_alphabet (by decide) escape extra

-----------------------------------------------------------------------------------------
-- Translations
-----------------------------------------------------------------------------------------

namespace Dialect

/-- The wildcards in what is written for a pattern in a dialect that can be read. -/
def wildcardsIn : Dialect → Pattern → List Char
  | .unix, p => Unix.spelling.wildcardsIn p
  | .sql92, p => Sql92.spelling.wildcardsIn p
  | .regex, _ | .simple, _ => []

variable {source target : Dialect} {escape : Char} {text written line : List Char} {p q : Pattern}

/-- A wildcard that is written as one and read back with the same escape keeps what it matches. -/
theorem matches_of_unix (hp : source.read? (some escape) text = .ok p)
    (hwritten : Dialect.unix.write? (some escape) p = .ok written)
    (hescape : source = .unix ∨ escape ∉ Unix.spelling.wildcardsIn p)
    (matched : p.Matches line)
    : (Unix.parse (Unix.alphabet (some escape)) written).Matches line := by
  have known := Unix.knownBy_alphabet escape []
  rw [Unix.matches_parse]
  by_cases wildcard : escape ∈ Unix.spelling.wildcardsIn p
  · -- the escape closes a class, and the class was read without being closed
    obtain rfl := hescape.resolve_right (not_not_intro wildcard)
    cases hp
    obtain rfl := Unix.eq_close_of_escape_mem_wildcardsIn wildcard
    have noClose : Token.operator ']' ∉ (Unix.alphabet (some ']')).tokenize text := fun member =>
      absurd (Alphabet.isOperator_of_mem_tokenize member).2 (by decide)
    refine Unix.tokensMatch_written_unclosed [] noClose ?_ (Pattern.matches_ofItems.mp matched)
    rw [← Spelling.written_ofItems]
    exact (Spelling.render_eq_written ..).symm.trans hwritten
  · exact Unix.reading.keeps_of_render known hwritten wildcard matched

theorem matches_of_sql92 (hp : source.read? (some escape) text = .ok p)
    (hwritten : Dialect.sql92.write? (some escape) p = .ok written)
    (hq : Sql92.parse (some escape) written = .ok q)
    (hescape : source = .sql92 ∨ escape ∉ Sql92.spelling.wildcardsIn p)
    (matched : p.Matches line)
    : q.Matches line := by
  have notWildcard : escape ∉ Sql92.spelling.wildcardsIn p := by
    rcases hescape with rfl | notWildcard
    · exact Sql92.escape_not_mem_wildcardsIn hp
    · exact notWildcard
  rw [Sql92.matches_of_parse hq]
  exact Sql92.reading.keeps_of_render (Sql92.knownBy_alphabet escape []) hwritten notWildcard
    matched

/-- A pattern that is read in one dialect, written in another and read there with the same escape
still accepts all that it accepted, unless the escape is one of the wildcards that are written. From
a dialect to itself this holds of any escape. -/
theorem translation_keeps_accepted (hp : source.read? (some escape) text = .ok p)
    (hwritten : target.write? (some escape) p = .ok written)
    (hq : target.read? (some escape) written = .ok q)
    (hescape : source = target ∨ escape ∉ target.wildcardsIn p)
    {m n : Matcher} (hm : p.matcher? = .ok m) (hn : q.matcher? = .ok n)
    (accepted : m.test line = true)
    : n.test line = true := by
  have matched := (Pattern.test_iff_matches hm line).mp accepted
  refine (Pattern.test_iff_matches hn line).mpr ?_
  cases target with
  | unix =>
      cases hq
      exact matches_of_unix hp hwritten hescape matched
  | sql92 => exact matches_of_sql92 hp hwritten hq hescape matched
  | regex | simple => exact absurd hq nofun

/-- The escape is the Unix operator for any character, which the pattern does not need. -/
theorem translation_keeps_accepted_question_mark
    : let p : Pattern := .group [.literal ['a', '*'], .anyString]
      let m : Matcher := ⟨Expression.anchored p, Expression.expression p⟩
      Dialect.sql92.read? (some '?') ['a', '*', '%'] = .ok p
        ∧ Dialect.unix.write? (some '?') p = .ok ['a', '?', '*', '*']
        ∧ Dialect.unix.read? (some '?') ['a', '?', '*', '*'] = .ok p
        ∧ '?' ∉ Dialect.unix.wildcardsIn p
        ∧ p.matcher? = .ok m ∧ m.test ['a', '*', 'b'] = true := by
  intro p m
  have read : Dialect.sql92.read? (some '?') ['a', '*', '%'] = .ok p := rfl
  have written : Dialect.unix.write? (some '?') p = .ok ['a', '?', '*', '*'] := rfl
  have again : Dialect.unix.read? (some '?') ['a', '?', '*', '*'] = .ok p := by cbv
  have notWildcard : '?' ∉ Dialect.unix.wildcardsIn p := by decide
  have compiled : p.matcher? = .ok m :=
    Pattern.matcher?_eq_ok_iff.mpr ⟨by decide +kernel, by decide +kernel, rfl⟩
  have accepted : m.test ['a', '*', 'b'] = true := by decide +kernel
  exact ⟨read, written, again, notWildcard, compiled,
    translation_keeps_accepted read written again (.inr notWildcard) compiled compiled accepted⟩

/-- With the Unix operator for any text as the escape, any text becomes a star: the operator is
written for it and read as an escape at the end of the text. -/
theorem translation_loses_any_text
    : let p := Pattern.anyString
      let q := Pattern.literal ['*']
      let matcher (p : Pattern) : Matcher := ⟨Expression.anchored p, Expression.expression p⟩
      Dialect.sql92.read? (some '*') ['%'] = .ok p
        ∧ Dialect.unix.write? (some '*') p = .ok ['*']
        ∧ Dialect.unix.read? (some '*') ['*'] = .ok q
        ∧ p.matcher? = .ok (matcher p) ∧ q.matcher? = .ok (matcher q)
        ∧ (matcher p).test ['a'] = true ∧ (matcher q).test ['a'] = false := by
  intro p q matcher
  have compiled : p.matcher? = .ok (matcher p) :=
    Pattern.matcher?_eq_ok_iff.mpr ⟨rfl, by decide +kernel, rfl⟩
  have compiledBack : q.matcher? = .ok (matcher q) :=
    Pattern.matcher?_eq_ok_iff.mpr ⟨rfl, by decide +kernel, rfl⟩
  have read : Dialect.unix.read? (some '*') ['*'] = .ok q := by cbv
  exact ⟨rfl, rfl, read, compiled, compiledBack, by decide +kernel, by decide +kernel⟩

end Dialect

end Wildcard
