import Wildcard.Proofs.Pattern.Matching
import Wildcard.Proofs.Render.Tokens
import Wildcard.Proofs.Sql92.Tokens
import Wildcard.Proofs.Unix.Tokens

/-! What a pattern matches after it was written in a wildcard language and read back.
Nothing that the pattern matches is lost. A repetition is read back as its copies before any text,
and a choice may be read back as any character, so something may be gained where the pattern
repeats more than arbitrary characters or chooses in a language without brackets.
-/

namespace Wildcard

namespace Pattern

mutual

/-- Whether every node of a pattern passes a check. -/
def everyNode (check : Pattern → Bool) : Pattern → Bool
  | .group items => check (.group items) && everyNodeOfAll check items
  | .atLeast body count => check (.atLeast body count) && everyNode check body
  | leaf => check leaf

def everyNodeOfAll (check : Pattern → Bool) : List Pattern → Bool
  | [] => true
  | item :: items => everyNode check item && everyNodeOfAll check items

end

/-- A node repeats nothing but arbitrary characters. -/
def repeatsOnlyAnyChar : Pattern → Bool
  | .atLeast .anyChar _ => true
  | .atLeast _ _ => false
  | _ => true

def isNotChoice : Pattern → Bool
  | .oneOf _ => false
  | _ => true

mutual

/-- Two checks may be made one after the other, by induction on the pattern. -/
theorem everyNode_and (check next : Pattern → Bool) (p : Pattern)
    : p.everyNode (fun node => check node && next node)
      ↔ p.everyNode check ∧ p.everyNode next := by
  cases p with
  | group items =>
      simp only [everyNode, Bool.and_eq_true, everyNodeOfAll_and check next items]
      exact and_and_and_comm
  | atLeast body count =>
      simp only [everyNode, Bool.and_eq_true, everyNode_and check next body]
      exact and_and_and_comm
  | _ => exact Bool.and_eq_true_iff

theorem everyNodeOfAll_and (check next : Pattern → Bool) (items : List Pattern)
    : everyNodeOfAll (fun node => check node && next node) items
      ↔ everyNodeOfAll check items ∧ everyNodeOfAll next items := by
  cases items with
  | nil => exact ⟨fun _ => ⟨rfl, rfl⟩, fun _ => rfl⟩
  | cons item items =>
      simp only [everyNodeOfAll, Bool.and_eq_true, everyNode_and check next item,
        everyNodeOfAll_and check next items]
      exact and_and_and_comm

end

end Pattern

namespace Spelling

open Pattern (InARow MatchesAll)

/-- What the tokens of a language match, one operator or character at a time. -/
structure Reading (sp : Spelling) (M : List Token → List Char → Prop) : Prop where
  done : ∀ text, M [] text ↔ text = []
  prepend : ∀ c tokens text,
    M (Token.prepend c tokens) text ↔ ∃ rest, text = c :: rest ∧ M tokens rest
  anyChar : ∀ tokens text,
    M (.operator sp.anyChar :: tokens) text ↔ ∃ c rest, text = c :: rest ∧ M tokens rest
  anyString : ∀ tokens text,
    M (.operator sp.anyString :: tokens) text
      ↔ ∃ skipped rest, text = skipped ++ rest ∧ M tokens rest
  choice : ∀ first last, sp.brackets = some (first, last) → ∀ (candidates : List Char) tokens text,
    M (.operator first :: candidates.foldr Token.prepend (.operator last :: tokens)) text
      ↔ ∃ c rest, text = c :: rest ∧ c ∈ candidates ∧ M tokens rest

variable {sp : Spelling} {M : List Token → List Char → Prop}

/-- An escaped text matches itself, by induction on the text. -/
theorem Reading.literal (h : sp.Reading M) (chars : List Char) (tokens : List Token)
    (text : List Char)
    : M (chars.foldr Token.prepend tokens) text ↔ ∃ rest, text = chars ++ rest ∧ M tokens rest := by
  induction chars generalizing text with
  | nil => simp
  | cons c chars ih =>
      rw [List.foldr_cons, h.prepend]
      simp only [ih]
      refine ⟨?_, ?_⟩
      · intro matched
        rcases matched with ⟨_, rfl, rest, rfl, matched⟩
        exact ⟨rest, rfl, matched⟩
      · intro matched
        rcases matched with ⟨rest, rfl, matched⟩
        exact ⟨chars ++ rest, rfl, rest, rfl, matched⟩

-----------------------------------------------------------------------------------------
-- Nothing is lost
-----------------------------------------------------------------------------------------

/-- A row is matched by that many copies of a body before any text, by induction on their
number. -/
theorem Reading.covers_repeat (h : sp.Reading M) {P : List Char → Prop}
    {before : List Token → List Token} {tokens : List Token} {text more : List Char} {count : Nat}
    (hbody : ∀ {first more tokens}, P first → M tokens more → M (before tokens) (first ++ more))
    (row : InARow P count text) (after : M tokens more)
    : M (Nat.repeat before count (.operator sp.anyString :: tokens)) (text ++ more) := by
  induction count generalizing text with
  | zero =>
      -- what is beyond the count may be anything for the operator
      exact (h.anyString tokens _).mpr ⟨text, more, rfl, after⟩
  | succ count ih =>
      cases row with
      | more here next =>
          rw [List.append_assoc]
          exact hbody here (ih next)

mutual

/-- The tokens of a pattern match what the pattern matches, before what the tokens after them
match, by induction on the pattern. -/
theorem Reading.covers (h : sp.Reading M) (p : Pattern) {first more : List Char}
    {rest : List Token} (matched : p.Matches first) (after : M rest more)
    : M (tokens sp p rest) (first ++ more) := by
  cases p with
  | empty =>
      cases matched
      exact after
  | anyChar =>
      obtain ⟨c, rfl⟩ := matched
      exact (h.anyChar rest _).mpr ⟨c, more, rfl, after⟩
  | literal chars =>
      cases matched
      exact (h.literal first rest _).mpr ⟨more, rfl, after⟩
  | oneOf candidates =>
      obtain ⟨c, member, rfl⟩ := matched
      rw [tokens]
      split
      · exact (h.anyChar rest _).mpr ⟨c, more, rfl, after⟩
      · next opening closing hbrackets =>
          exact (h.choice opening closing hbrackets candidates rest _).mpr
            ⟨c, more, rfl, member, after⟩
  | group items => exact h.coversAll items matched after
  | atLeast body count => exact h.covers_repeat (h.covers body) matched after

theorem Reading.coversAll (h : sp.Reading M) (items : List Pattern) {first more : List Char}
    {rest : List Token} (matched : MatchesAll items first) (after : M rest more)
    : M (tokensAll sp items rest) (first ++ more) := by
  cases items with
  | nil =>
      cases matched
      exact after
  | cons item items =>
      obtain ⟨here, there, rfl, matched, others⟩ := matched
      rw [List.append_assoc]
      exact h.covers item matched (h.coversAll items others after)

end

/-- What is read back from the rendered text of a pattern matches everything that the pattern
matches, unless the escape is one of the wildcards in that text. -/
theorem Reading.keeps_of_render (h : sp.Reading M) {a : Alphabet} {escape : Char}
    {extra : List Char} {p : Pattern} {source text : List Char}
    (known : sp.KnownBy (Escaping.ofOperators sp.operators (some escape) extra) a escape)
    (hp : p.render (sp.renderer escape extra) = .ok source) (notEscape : escape ∉ sp.wildcardsIn p)
    (matched : p.Matches text)
    : M (a.tokenize source) text := by
  have covered := h.covers p matched ((h.done []).mpr rfl)
  rw [List.append_nil] at covered
  rwa [known.tokenize_render hp notEscape]

-----------------------------------------------------------------------------------------
-- Where nothing is gained
-----------------------------------------------------------------------------------------

/-- A node that a language spells out: it repeats arbitrary characters only, and it is no choice
unless there are brackets. -/
def spellsOut (sp : Spelling) (p : Pattern) : Bool :=
  p.repeatsOnlyAnyChar && (sp.brackets.isSome || p.isNotChoice)

/-- Copies of an operator for any character, before an operator for any text, match long enough
texts, by induction on the number of copies. -/
theorem Reading.inARow_of_repeat (h : sp.Reading M) {rest : List Token} {text : List Char}
    (count : Nat)
    (matched : M (Nat.repeat (tokens sp .anyChar) count (.operator sp.anyString :: rest)) text)
    : ∃ first more,
        text = first ++ more ∧ InARow Pattern.anyChar.Matches count first ∧ M rest more := by
  induction count generalizing text with
  | zero =>
      obtain ⟨skipped, more, rfl, after⟩ := (h.anyString rest _).mp matched
      exact ⟨skipped, more, rfl, Pattern.matches_anyString skipped, after⟩
  | succ count ih =>
      obtain ⟨c, _, rfl, others⟩ := (h.anyChar _ _).mp matched
      obtain ⟨first, more, rfl, row, after⟩ := ih others
      have longer : InARow Pattern.anyChar.Matches (count + 1) ([c] ++ first) :=
        .more ⟨c, rfl⟩ row
      exact ⟨[c] ++ first, more, rfl, longer, after⟩

mutual

/-- What the tokens of a pattern match splits into what the pattern matches and what the tokens
after them match if every node is spelled out, by induction on the pattern. -/
theorem Reading.splits (h : sp.Reading M) (p : Pattern) (hp : p.everyNode sp.spellsOut)
    {text : List Char} {rest : List Token} (matched : M (tokens sp p rest) text)
    : ∃ first more, text = first ++ more ∧ p.Matches first ∧ M rest more := by
  cases p with
  | empty => exact ⟨[], text, rfl, rfl, matched⟩
  | anyChar =>
      obtain ⟨c, more, rfl, after⟩ := (h.anyChar rest _).mp matched
      exact ⟨[c], more, rfl, ⟨c, rfl⟩, after⟩
  | literal chars =>
      obtain ⟨more, rfl, after⟩ := (h.literal chars rest _).mp matched
      exact ⟨chars, more, rfl, rfl, after⟩
  | oneOf candidates =>
      have bracketed : sp.brackets.isSome := by
        simpa [Pattern.everyNode, spellsOut, Pattern.repeatsOnlyAnyChar, Pattern.isNotChoice]
          using hp
      obtain ⟨⟨opening, closing⟩, hbrackets⟩ := Option.isSome_iff_exists.mp bracketed
      simp only [tokens, hbrackets] at matched
      obtain ⟨c, more, rfl, member, after⟩ :=
        (h.choice opening closing hbrackets candidates rest _).mp matched
      exact ⟨[c], more, rfl, ⟨c, member, rfl⟩, after⟩
  | group items =>
      rw [Pattern.everyNode, Bool.and_eq_true] at hp
      exact h.splitsAll items hp.2 matched
  | atLeast body count =>
      have anyChar : body = .anyChar := by
        cases body <;> simp_all [Pattern.everyNode, spellsOut, Pattern.repeatsOnlyAnyChar]
      subst anyChar
      exact h.inARow_of_repeat count matched

theorem Reading.splitsAll (h : sp.Reading M) (items : List Pattern)
    (hitems : Pattern.everyNodeOfAll sp.spellsOut items) {text : List Char} {rest : List Token}
    (matched : M (tokensAll sp items rest) text)
    : ∃ first more, text = first ++ more ∧ MatchesAll items first ∧ M rest more := by
  cases items with
  | nil => exact ⟨[], text, rfl, rfl, matched⟩
  | cons item items =>
      rw [Pattern.everyNodeOfAll, Bool.and_eq_true] at hitems
      obtain ⟨here, others, rfl, first, matched⟩ := h.splits item hitems.1 matched
      obtain ⟨there, more, rfl, next, after⟩ := h.splitsAll items hitems.2 matched
      exact ⟨here ++ there, more, by rw [List.append_assoc], ⟨here, there, rfl, first, next⟩, after⟩

end

/-- What is read back from the rendered text of a pattern matches everything that the pattern
matches, and nothing else if every node is spelled out. -/
theorem Reading.matches_of_render (h : sp.Reading M) {a : Alphabet} {escape : Char}
    {extra : List Char} {p q : Pattern} {source : List Char}
    (reads : sp.ReadBy (Escaping.ofOperators sp.operators (some escape) extra) a escape)
    (hp : p.render (sp.renderer escape extra) = .ok source)
    (hq : ∀ text, q.Matches text ↔ M (a.tokenize source) text)
    : (∀ text, p.Matches text → q.Matches text)
      ∧ (p.everyNode sp.spellsOut → ∀ text, q.Matches text ↔ p.Matches text) := by
  have kept : ∀ text, p.Matches text → q.Matches text := fun text matched =>
    (hq text).mpr (h.keeps_of_render reads.knownBy hp (reads.not_mem_wildcardsIn p) matched)
  rw [reads.tokenize_render hp] at hq
  refine ⟨kept, fun spelled text => ⟨?_, kept text⟩⟩
  intro matched
  obtain ⟨first, more, rfl, matched, after⟩ := h.splits p spelled ((hq text).mp matched)
  rw [(h.done more).mp after, List.append_nil]
  exact matched

end Spelling

-----------------------------------------------------------------------------------------
-- The two languages
-----------------------------------------------------------------------------------------

theorem Unix.reading
    : Unix.spelling.Reading Unix.TokensMatch where
  done _ := tokensMatch_nil
  prepend _ _ _ := tokensMatch_prepend
  anyChar _ _ := tokensMatch_anyChar
  anyString _ _ := tokensMatch_anyString
  choice first last hbrackets candidates tokens text := by
    cases hbrackets
    rw [tokensMatch_opening, enclosed_foldr]

theorem Sql92.reading
    : Sql92.spelling.Reading Sql92.TokensMatch where
  done _ := tokensMatch_nil
  prepend _ _ _ := tokensMatch_prepend
  anyChar _ _ := tokensMatch_anyChar
  anyString _ _ := tokensMatch_anyString
  choice _ _ hbrackets := absurd hbrackets nofun

theorem Unix.readBy_alphabet {escape : Char} (h : escape ∉ ['*', '?', '[', ']'])
    (extra : List Char)
    : spelling.ReadBy (Escaping.ofOperators operators (some escape) extra)
        (alphabet (some escape)) escape := by
  have notWildcard : escape ∉ spelling.wildcards := by
    simpa [Spelling.wildcards, spelling, or_left_comm] using h
  exact Spelling.readBy_alphabet (by decide) notWildcard extra

theorem Sql92.readBy_alphabet {escape : Char} (h : escape ∉ ['%', '_']) (extra : List Char)
    : spelling.ReadBy (Escaping.ofOperators operators (some escape) extra)
        (alphabet (some escape)) escape := by
  have notWildcard : escape ∉ spelling.wildcards := by
    simpa [Spelling.wildcards, spelling, or_comm] using h
  exact Spelling.readBy_alphabet (by decide) notWildcard extra

namespace Pattern

/-- A node is spelled out in brackets where it is a choice, so only repetitions count. -/
theorem spellsOut_unix
    : Unix.spelling.spellsOut = repeatsOnlyAnyChar := by
  funext p
  exact Bool.and_true _

/-- A language without brackets spells out no choice. -/
theorem spellsOut_sql92
    : Sql92.spelling.spellsOut = fun p => p.repeatsOnlyAnyChar && p.isNotChoice :=
  rfl

/-- The matcher of one pattern accepts what the matcher of another accepts, and nothing else where
the reading is exact. -/
def CoveredBy (p q : Pattern) (exact : Prop) : Prop :=
  ∀ m n, p.matcher? = .ok m → q.matcher? = .ok n →
    (∀ text, m.test text = true → n.test text = true)
    ∧ (exact → ∀ text, n.test text = m.test text)

theorem coveredBy_of_matches {p q : Pattern} {exact : Prop}
    (kept : ∀ text, p.Matches text → q.Matches text)
    (same : exact → ∀ text, q.Matches text ↔ p.Matches text)
    : p.CoveredBy q exact := by
  intro m n hm hn
  refine ⟨?_, ?_⟩
  · intro text accepted
    exact (test_iff_matches hn text).mpr (kept text ((test_iff_matches hm text).mp accepted))
  · intro h text
    rw [Bool.eq_iff_iff, test_iff_matches hn, test_iff_matches hm]
    exact same h text

/-- A pattern that is written in a wildcard language and read back with the same escape covers the
pattern. The two accept the same texts if only arbitrary characters are repeated and, in a language
without brackets, nothing is chosen. Reading an SQL92 expression back never fails. -/
theorem coveredBy_rendered (p : Pattern) (escape : Char) (extra : List Char)
    : (escape ∉ ['*', '?', '[', ']'] →
        ∀ source, p.render (Unix.spelling.renderer escape extra) = .ok source →
          p.CoveredBy (Unix.parse (Unix.alphabet (some escape)) source)
            (p.everyNode repeatsOnlyAnyChar))
      ∧ (escape ∉ ['%', '_'] →
          ∀ source, p.render (Sql92.spelling.renderer escape extra) = .ok source →
            ∃ q, Sql92.parse (some escape) source = .ok q
              ∧ p.CoveredBy q (p.everyNode repeatsOnlyAnyChar ∧ p.everyNode isNotChoice)) := by
  refine ⟨?_, ?_⟩
  · intro hescape source hsource
    have notWildcard : escape ∉ Unix.spelling.wildcards := by
      simpa [Spelling.wildcards, Unix.spelling, or_left_comm] using hescape
    obtain ⟨kept, same⟩ := Unix.reading.matches_of_render
      (Spelling.readBy_alphabet (by decide) notWildcard extra) hsource
      fun text => Unix.matches_parse
    rw [spellsOut_unix] at same
    exact coveredBy_of_matches kept same
  · intro hescape source hsource
    have notWildcard : escape ∉ Sql92.spelling.wildcards := by
      simpa [Spelling.wildcards, Sql92.spelling, or_comm] using hescape
    refine ⟨_, Sql92.parse_eq_ok (some escape) source, ?_⟩
    obtain ⟨kept, same⟩ := Sql92.reading.matches_of_render
      (Spelling.readBy_alphabet (by decide) notWildcard extra) hsource
      fun text => Sql92.matches_of_parse (Sql92.parse_eq_ok (some escape) source)
    rw [spellsOut_sql92, everyNode_and] at same
    exact coveredBy_of_matches kept same

/-- A literal with operators of both languages and an extra character, before at least one more
character. -/
theorem coveredBy_rendered_operators
    : let p : Pattern := .group [.literal ['*', '%', 'a'], .atLeast .anyChar 1]
      let matcher (q : Pattern) : Matcher := ⟨Expression.anchored q, Expression.expression q⟩
      let unix := Unix.parse (Unix.alphabet (some '\\')) ['\\', '*', '%', '\\', 'a', '?', '*']
      p.render (Unix.spelling.renderer '\\' ['a']) = .ok ['\\', '*', '%', '\\', 'a', '?', '*']
        ∧ p.render (Sql92.spelling.renderer '\\' ['a'])
          = .ok ['*', '\\', '%', '\\', 'a', '_', '%']
        ∧ p.matcher? = .ok (matcher p) ∧ unix.matcher? = .ok (matcher unix)
        ∧ (∀ text, (matcher unix).test text = (matcher p).test text)
        ∧ ∃ sql, Sql92.parse (some '\\') ['*', '\\', '%', '\\', 'a', '_', '%'] = .ok sql
          ∧ sql.matcher? = .ok (matcher sql)
          ∧ ∀ text, (matcher sql).test text = (matcher p).test text := by
  intro p matcher unix
  have writtenUnix : p.render (Unix.spelling.renderer '\\' ['a'])
      = .ok ['\\', '*', '%', '\\', 'a', '?', '*'] := rfl
  have writtenSql : p.render (Sql92.spelling.renderer '\\' ['a'])
      = .ok ['*', '\\', '%', '\\', 'a', '_', '%'] := rfl
  have compiled : p.matcher? = .ok (matcher p) :=
    matcher?_eq_ok_iff.mpr ⟨rfl, by decide +kernel, rfl⟩
  have compiledUnix : unix.matcher? = .ok (matcher unix) :=
    matcher?_eq_ok_iff.mpr ⟨by decide +kernel, by decide +kernel, rfl⟩
  obtain ⟨inUnix, inSql⟩ := coveredBy_rendered p '\\' ['a']
  obtain ⟨sql, hsql, covered⟩ := inSql (by decide) _ writtenSql
  have compiledSql : sql.matcher? = .ok (matcher sql) := by
    rw [Sql92.parse_eq_ok] at hsql
    cases hsql
    exact matcher?_eq_ok_iff.mpr ⟨by decide +kernel, by decide +kernel, rfl⟩
  have sameUnix := (inUnix (by decide) _ writtenUnix _ _ compiled compiledUnix).2 rfl
  have sameSql := (covered _ _ compiled compiledSql).2 ⟨rfl, rfl⟩
  exact ⟨writtenUnix, writtenSql, compiled, compiledUnix, sameUnix, sql, hsql, compiledSql,
    sameSql⟩

end Pattern

end Wildcard
