import Wildcard.Proofs.Render.Coverage
import Wildcard.Proofs.Sql92.Items
import Wildcard.Proofs.Unix.Items

/-! Written text stays as it is when it is read and written again.
What is read back is another pattern than the one that was written: copies stand where a repetition
was, groups are gone and literals are joined. Its items are written as the same text all the same,
since every token is read as an item that is written as that token.
-/

namespace Wildcard

namespace Spelling

variable {sp : Spelling} {e : Escaping} {f : List Token → List Pattern}

/-- Items in front are written before the others. -/
theorem writtenAll_cons {item : Pattern} {text : List Char} (h : written sp e item = .ok text)
    (items : List Pattern)
    : writtenAll sp e (item :: items) = (writtenAll sp e items).map (text ++ ·) := by
  rw [writtenAll, h]
  cases writtenAll sp e items <;> rfl

theorem writtenAll_cons_literal (text : List Char) (items : List Pattern)
    : writtenAll sp e (.literal text :: items)
      = (writtenAll sp e items).map (e.apply text ++ ·) :=
  writtenAll_cons rfl items

theorem writtenAll_cons_anyChar (items : List Pattern)
    : writtenAll sp e (.anyChar :: items) = (writtenAll sp e items).map ([sp.anyChar] ++ ·) :=
  writtenAll_cons rfl items

theorem map_nil_append (outcome : Except Error (List Char))
    : outcome.map ([] ++ ·) = outcome := by
  cases outcome <;> rfl

/-- Text in two parts in front is text in front. -/
theorem map_append_map (first next : List Char) (outcome : Except Error (List Char))
    : (outcome.map (next ++ ·)).map (first ++ ·) = outcome.map ((first ++ next) ++ ·) := by
  cases outcome with
  | error fault => rfl
  | ok rest => exact congrArg Except.ok (List.append_assoc first next rest).symm

/-- An ordinary character in front is written as it is escaped, whether or not it joins a run. -/
theorem Itemizes.writtenAll_prepend (h : sp.Itemizes f) (c : Char) (tokens : List Token)
    : writtenAll sp e (f (Token.prepend c tokens))
      = (writtenAll sp e (f tokens)).map (e.apply [c] ++ ·) := by
  unfold Token.prepend
  split
  · next chars tokens =>
      have joined : e.apply (c :: chars) = e.apply [c] ++ e.apply chars :=
        e.apply_append [c] chars
      rw [h.text, h.text, writtenAll_cons_literal, writtenAll_cons_literal, map_append_map, joined]
  · rw [h.text, writtenAll_cons_literal]

/-- So are several characters, by induction on them. -/
theorem Itemizes.writtenAll_foldr_prepend (h : sp.Itemizes f) (chars : List Char)
    (tokens : List Token)
    : writtenAll sp e (f (chars.foldr Token.prepend tokens))
      = (writtenAll sp e (f tokens)).map (e.apply chars ++ ·) := by
  induction chars with
  | nil => rw [e.apply_nil, map_nil_append, List.foldr_nil]
  | cons c chars ih =>
      have joined : e.apply (c :: chars) = e.apply [c] ++ e.apply chars :=
        e.apply_append [c] chars
      rw [List.foldr_cons, h.writtenAll_prepend, ih, map_append_map, joined]

/-- A choice is written as it was, or as any character again. -/
theorem Itemizes.writtenAll_choice (h : sp.Itemizes f) (candidates : List Char)
    (rest : List Token)
    : writtenAll sp e (f (tokens sp (.oneOf candidates) rest))
      = (writtenAll sp e (f rest)).map (sp.choice e candidates ++ ·) := by
  rw [tokens, Spelling.choice]
  cases hbrackets : sp.brackets with
  | none =>
      dsimp only
      rw [h.anyChar, writtenAll_cons_anyChar]
  | some brackets =>
      have inBrackets : written sp e (.oneOf candidates)
          = .ok (brackets.1 :: e.apply candidates ++ [brackets.2]) := by
        rw [written, Spelling.choice, hbrackets]
      dsimp only
      rw [h.choice brackets.1 brackets.2 hbrackets, writtenAll_cons inBrackets]

/-- Copies of tokens are written as copies of their text, by induction on their number. -/
theorem writtenAll_repeat {before : List Token → List Token} {text : List Char}
    (h : ∀ rest, writtenAll sp e (f (before rest)) = (writtenAll sp e (f rest)).map (text ++ ·))
    (count : Nat) (rest : List Token)
    : writtenAll sp e (f (Nat.repeat before count rest))
      = (writtenAll sp e (f rest)).map ((List.replicate count text).flatten ++ ·) := by
  induction count with
  | zero => rw [List.replicate_zero, List.flatten_nil, map_nil_append, Nat.repeat]
  | succ count ih =>
      rw [Nat.repeat, h, ih, map_append_map, List.replicate_succ, List.flatten_cons]

mutual

/-- The tokens of a pattern are read as items that are written as the pattern was, by induction on
the pattern. -/
theorem Itemizes.writtenAll_tokens (h : sp.Itemizes f) (p : Pattern) {text : List Char}
    (hp : written sp e p = .ok text) (rest : List Token)
    : writtenAll sp e (f (tokens sp p rest)) = (writtenAll sp e (f rest)).map (text ++ ·) := by
  cases p with
  | empty =>
      cases hp
      rw [map_nil_append, tokens]
  | anyChar =>
      cases hp
      rw [tokens, h.anyChar, writtenAll_cons_anyChar]
  | literal chars =>
      cases hp
      exact h.writtenAll_foldr_prepend chars rest
  | oneOf candidates =>
      cases hp
      exact h.writtenAll_choice candidates rest
  | group items => exact h.writtenAll_tokensAll items hp rest
  | atLeast body count =>
      rw [written] at hp
      obtain ⟨bodyText, hbody, hp⟩ := exists_of_bind_eq_ok hp
      rw [repetition] at hp
      split at hp
      · cases hp
        have behind : writtenAll sp e (f (.operator sp.anyString :: rest))
            = (writtenAll sp e (f rest)).map ([sp.anyString] ++ ·) := by
          rw [h.anyString, writtenAll_cons (written_anyString e)]
        change writtenAll sp e (f (Nat.repeat (tokens sp body) count _)) = _
        rw [writtenAll_repeat (h.writtenAll_tokens body hbody), behind, map_append_map,
          Text.repeated_eq_flatten]
      · exact absurd hp nofun

theorem Itemizes.writtenAll_tokensAll (h : sp.Itemizes f) (items : List Pattern)
    {text : List Char} (hitems : writtenAll sp e items = .ok text) (rest : List Token)
    : writtenAll sp e (f (tokensAll sp items rest))
      = (writtenAll sp e (f rest)).map (text ++ ·) := by
  cases items with
  | nil =>
      cases hitems
      rw [map_nil_append, tokensAll]
  | cons item items =>
      rw [writtenAll] at hitems
      obtain ⟨first, hfirst, hitems⟩ := exists_of_bind_eq_ok hitems
      obtain ⟨more, hmore, hitems⟩ := exists_of_bind_eq_ok hitems
      cases hitems
      rw [tokensAll, h.writtenAll_tokens item hfirst, h.writtenAll_tokensAll items hmore,
        map_append_map]

end

variable {escape : Char} {extra : List Char}

/-- What is read from rendered text is rendered as the same text. -/
theorem Itemizes.render_ofItems_tokenize (h : sp.Itemizes f) {a : Alphabet}
    (reads : sp.ReadBy (Escaping.ofOperators sp.operators (some escape) extra) a escape)
    {p : Pattern} {source : List Char}
    (rendered : p.render (sp.renderer escape extra) = .ok source)
    : (Pattern.ofItems (f (a.tokenize source))).render (sp.renderer escape extra)
      = .ok source := by
  have split := reads.tokenize_render rendered
  rw [render_eq_written] at rendered
  rw [render_eq_written, written_ofItems, split, h.writtenAll_tokens p rendered, h.done]
  exact congrArg Except.ok (List.append_nil source)

/-- Flat items are always rendered. -/
theorem exists_render_ofItems {items : List Pattern} (areFlat : ∀ item ∈ items, item.IsFlat)
    (escape : Char) (extra : List Char)
    : ∃ source, (Pattern.ofItems items).render (sp.renderer escape extra) = .ok source := by
  rw [render_eq_written, written_ofItems]
  exact exists_writtenAll _ areFlat

end Spelling

open Spelling (exists_render_ofItems)

/-- Read from a text that was written with the same escape, a wildcard is written as that text. -/
theorem Unix.render_parse {escape : Char} (hescape : escape ∉ ['*', '?', '[', ']'])
    {extra : List Char} {p : Pattern} {source : List Char}
    (rendered : p.render (spelling.renderer escape extra) = .ok source)
    : (parse (alphabet (some escape)) source).render (spelling.renderer escape extra)
      = .ok source :=
  itemizes.render_ofItems_tokenize (readBy_alphabet hescape extra) rendered

/-- Read from a text that was written with the same escape, an expression is written as that
text. -/
theorem Sql92.render_parse {escape : Char} (hescape : escape ∉ ['%', '_'])
    {extra : List Char} {p : Pattern} {source : List Char}
    (rendered : p.render (spelling.renderer escape extra) = .ok source)
    : ∃ q, parse (some escape) source = .ok q
        ∧ q.render (spelling.renderer escape extra) = .ok source :=
  ⟨_, parse_eq_ok (some escape) source,
    itemizes.render_ofItems_tokenize (readBy_alphabet hescape extra) rendered⟩

/-- Whatever is read from a text can be written. -/
theorem Unix.exists_render_parse (a : Alphabet) (text : List Char) (escape : Char)
    (extra : List Char)
    : ∃ source, (parse a text).render (spelling.renderer escape extra) = .ok source :=
  exists_render_ofItems isFlat_of_mem_items escape extra

theorem Sql92.exists_render_parse (reader : Option Char) (text : List Char) (escape : Char)
    (extra : List Char)
    : ∃ p source, parse reader text = .ok p
        ∧ p.render (spelling.renderer escape extra) = .ok source := by
  have areFlat : ∀ item ∈ (items ((alphabet reader).tokenize text)).1, item.IsFlat :=
    isFlat_of_mem_items
  have found : ∃ source, (Pattern.ofItems _).render (spelling.renderer escape extra) = .ok source :=
    exists_render_ofItems areFlat escape extra
  obtain ⟨source, rendered⟩ := found
  exact ⟨_, source, parse_eq_ok reader text, rendered⟩

namespace Pattern

/-- Text that was written for any pattern is written again for the pattern that is read from it.
Whatever is read from any text can be written, even with an alphabet of one's own, and what is
written for it does not change when it is read and written once more. -/
theorem rendered_text_stable (escape : Char) (extra : List Char)
    : (escape ∉ ['*', '?', '[', ']'] →
        let write (p : Pattern) := p.render (Unix.spelling.renderer escape extra)
        let read := Unix.parse (Unix.alphabet (some escape))
        (∀ p source, write p = .ok source → write (read source) = .ok source)
          ∧ ∀ a text, ∃ source, write (Unix.parse a text) = .ok source
            ∧ write (read source) = .ok source)
      ∧ (escape ∉ ['%', '_'] →
          let write (p : Pattern) := p.render (Sql92.spelling.renderer escape extra)
          let read := Sql92.parse (some escape)
          (∀ p source, write p = .ok source → ∃ q, read source = .ok q ∧ write q = .ok source)
            ∧ ∀ reader text, ∃ p source q, Sql92.parse reader text = .ok p ∧ write p = .ok source
              ∧ read source = .ok q ∧ write q = .ok source) := by
  refine ⟨?_, ?_⟩
  · intro hescape write read
    have again (p : Pattern) (source : List Char) (rendered : write p = .ok source)
        : write (read source) = .ok source := Unix.render_parse hescape rendered
    refine ⟨again, ?_⟩
    intro a text
    obtain ⟨source, rendered⟩ := Unix.exists_render_parse a text escape extra
    exact ⟨source, rendered, again _ source rendered⟩
  · intro hescape write read
    have again (p : Pattern) (source : List Char) (rendered : write p = .ok source)
        : ∃ q, read source = .ok q ∧ write q = .ok source := Sql92.render_parse hescape rendered
    refine ⟨again, ?_⟩
    intro reader text
    obtain ⟨p, source, parsed, rendered⟩ := Sql92.exists_render_parse reader text escape extra
    obtain ⟨q, parsedAgain, renderedAgain⟩ := again p source rendered
    exact ⟨p, source, q, parsed, rendered, parsedAgain, renderedAgain⟩

/-- A repeated group becomes copies, a choice becomes any character in the expression, and a
quotation is left out before a class that nothing closes. -/
theorem rendered_text_stable_repetition
    : let p : Pattern := .group [.literal ['*'], .literal ['%'],
        .atLeast (.group [.literal ['a'], .oneOf ['z', ']']]) 2, .empty]
      let wildcard : List Char := ['"', '*', '%', 'a', '[', 'z', '"', ']', ']', 'a', '[', 'z', '"',
        ']', ']', '*']
      let expression : List Char := ['*', '"', '%', 'a', '_', 'a', '_', '%']
      let writeWildcard (p : Pattern) := p.render (Unix.spelling.renderer '"' [])
      let writeExpression (p : Pattern) := p.render (Sql92.spelling.renderer '"' [])
      '"' ∉ ['*', '?', '[', ']'] ∧ '"' ∉ ['%', '_']
        ∧ writeWildcard p = .ok wildcard
        ∧ writeWildcard (Unix.parse (Unix.alphabet (some '"')) wildcard) = .ok wildcard
        ∧ writeExpression p = .ok expression
        ∧ (∃ q, Sql92.parse (some '"') expression = .ok q ∧ writeExpression q = .ok expression)
        ∧ ∃ source,
          writeWildcard (Unix.parse (Unix.alphabet none) ['"', 'a', '*', '"', '[', 'b'])
              = .ok source
            ∧ writeWildcard (Unix.parse (Unix.alphabet (some '"')) source) = .ok source := by
  intro p wildcard expression writeWildcard writeExpression
  have asWildcard : writeWildcard p = .ok wildcard := rfl
  have asExpression : writeExpression p = .ok expression := rfl
  have notWildcard : '"' ∉ ['*', '?', '[', ']'] := by decide
  have notOperator : '"' ∉ ['%', '_'] := by decide
  obtain ⟨inWildcard, inExpression⟩ := rendered_text_stable '"' []
  obtain ⟨again, anyText⟩ := inWildcard notWildcard
  exact ⟨notWildcard, notOperator, asWildcard, again p wildcard asWildcard, asExpression,
    (inExpression notOperator).1 p expression asExpression, anyText _ _⟩

end Pattern

end Wildcard
