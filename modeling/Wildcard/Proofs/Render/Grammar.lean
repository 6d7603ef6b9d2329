import Wildcard.Proofs.Render.ReadBack

/-! The grammar of sources.
A source is made of pieces: characters, classes of characters and groups, each of which may be
repeated. Every character is written with an escape if it means anything else without one, in a class
as outside of one, so parentheses and brackets match, a quantifier has a piece before it, and nothing
in a class but its characters has a meaning. A pattern has such a source unless one of its counts is
too large, and every text of the grammar is read as an expression.
-/

namespace Wildcard

namespace Pattern

mutual

/-- The counts of the repetitions in a pattern. -/
def counts : Pattern → List Nat
  | .empty | .anyChar | .literal _ | .oneOf _ => []
  | .group items => countsAll items
  | .atLeast body count => count :: counts body

def countsAll : List Pattern → List Nat
  | [] => []
  | item :: items => counts item ++ countsAll items

end

end Pattern

namespace Expression

open Regex (OpenGroups sequence)

/-- One character, with the escape in front if it is special. -/
inductive IsLetter : List Char → Prop where
  | plain {c : Char} (unlisted : c ∉ operators) (notEscape : c ≠ '\\') : IsLetter [c]
  | escaped {c : Char} (special : c ∈ operators ∨ c = '\\') : IsLetter ['\\', c]

/-- Characters one after the other. -/
inductive IsLetters : List Char → Prop where
  | nil : IsLetters []
  | cons {first rest : List Char} (here : IsLetter first) (behind : IsLetters rest)
    : IsLetters (first ++ rest)

mutual

/-- What a quantifier may stand behind. -/
inductive IsPiece : List Char → Prop where
  | letter {text : List Char} (isLetter : IsLetter text) : IsPiece text
  | any : IsPiece ['.']
  | choice {members : List Char} (areLetters : IsLetters members) (nonempty : members ≠ [])
    : IsPiece ('[' :: members ++ [']'])
  /-- The one class that is negated and has a range in it. -/
  | nothing : IsPiece (emptyClass ++ [']'])
  | group {row : List Char} (inside : IsRow row) : IsPiece ('(' :: row ++ [')'])
  | unit {row : List Char} (inside : IsRow row) : IsPiece (unit row)
  | repeated {text : List Char} (isPiece : IsPiece text) {count : Nat}
    (fits : count ≤ Lexeme.maxCount) : IsPiece (text ++ quantifier count)

/-- Pieces one after the other. -/
inductive IsRow : List Char → Prop where
  | nil : IsRow []
  | cons {first rest : List Char} (here : IsPiece first) (behind : IsRow rest)
    : IsRow (first ++ rest)

end

/-- A row of pieces between anchors. -/
inductive IsExpression : List Char → Prop where
  | anchored {row : List Char} (inside : IsRow row) : IsExpression ('^' :: row ++ ['$'])

-----------------------------------------------------------------------------------------
-- Sources are in the grammar
-----------------------------------------------------------------------------------------

theorem isLetter_apply (c : Char)
    : IsLetter (escaping.apply [c]) := by
  rw [apply_cons]
  split
  · next special => exact .escaped (isSpecial_iff.mp special)
  · next plain =>
      obtain ⟨unlisted, notEscape⟩ := not_mem_operators_of_not_isSpecial plain
      exact .plain unlisted notEscape

/-- Escaped text is letter by letter in the grammar, by induction on the text. -/
theorem isLetters_apply (text : List Char)
    : IsLetters (escaping.apply text) := by
  induction text with
  | nil => exact .nil
  | cons c text ih =>
      have joined : escaping.apply (c :: text) = escaping.apply [c] ++ escaping.apply text :=
        escaping.apply_append [c] text
      rw [joined]
      exact .cons (isLetter_apply c) ih

theorem IsLetters.isRow {text : List Char} (h : IsLetters text)
    : IsRow text := by
  induction h with
  | nil => exact .nil
  | cons here _ ih => exact .cons (.letter here) ih

theorem IsPiece.isRow {text : List Char} (h : IsPiece text)
    : IsRow text := by
  rw [← List.append_nil text]
  exact .cons h .nil

/-- Rows follow one another, by recursion on the first. -/
theorem IsRow.append {first rest : List Char} (h : IsRow first) (behind : IsRow rest)
    : IsRow (first ++ rest) := by
  match first, h with
  | _, .nil => exact behind
  | _, .cons here others =>
      rw [List.append_assoc]
      exact .cons here (others.append behind)

theorem isPiece_classSource (candidates : List Char)
    : IsPiece (classSource candidates) := by
  cases candidates with
  | nil => exact .nothing
  | cons c cs =>
      refine .choice (isLetters_apply (c :: cs)) ?_
      rw [apply_cons]
      split <;> exact List.cons_ne_nil _ _

mutual

/-- The body of a repetition is one piece, by induction on the pattern. -/
theorem isPiece_source (p : Pattern) (fits : countsFit p)
    : IsPiece (source true p) := by
  cases p with
  | empty => exact .unit .nil
  | anyChar => exact .any
  | literal text =>
      rw [source]
      split
      · exact .unit (isLetters_apply text).isRow
      · next single =>
          have one : text.length = 1 := by simpa using single
          obtain ⟨c, rfl⟩ := List.length_eq_one_iff.mp one
          exact .letter (isLetter_apply c)
  | oneOf candidates => exact isPiece_classSource candidates
  | group items => exact .group (isRow_sourceAll items fits)
  | atLeast body count =>
      rw [countsFit, Bool.and_eq_true, decide_eq_true_eq] at fits
      exact .repeated (isPiece_source body fits.1) fits.2

/-- Any pattern is a row of pieces. -/
theorem isRow_source (p : Pattern) (fits : countsFit p)
    : IsRow (source false p) := by
  cases p with
  | empty => exact .nil
  | literal text => exact (isLetters_apply text).isRow
  | anyChar => exact IsPiece.any.isRow
  | oneOf candidates => exact (isPiece_classSource candidates).isRow
  | group items => exact (IsPiece.group (isRow_sourceAll items fits)).isRow
  | atLeast body count =>
      rw [countsFit, Bool.and_eq_true, decide_eq_true_eq] at fits
      exact (IsPiece.repeated (isPiece_source body fits.1) fits.2).isRow

theorem isRow_sourceAll (items : List Pattern) (fits : allCountsFit items)
    : IsRow (sourceAll items) := by
  cases items with
  | nil => exact .nil
  | cons item items =>
      rw [allCountsFit, Bool.and_eq_true] at fits
      exact (isRow_source item fits.1).append (isRow_sourceAll items fits.2)

end

mutual

/-- The counts fit if none of them is too large, by induction on the pattern. -/
theorem countsFit_iff (p : Pattern)
    : countsFit p ↔ ∀ count ∈ p.counts, count ≤ Lexeme.maxCount := by
  cases p with
  | empty | anyChar | literal | oneOf => simp [countsFit, Pattern.counts]
  | group items => exact allCountsFit_iff items
  | atLeast body count =>
      rw [countsFit, Bool.and_eq_true, countsFit_iff body, decide_eq_true_eq, Pattern.counts,
        List.forall_mem_cons, and_comm]

theorem allCountsFit_iff (items : List Pattern)
    : allCountsFit items ↔ ∀ count ∈ Pattern.countsAll items, count ≤ Lexeme.maxCount := by
  cases items with
  | nil => simp [allCountsFit, Pattern.countsAll]
  | cons item items =>
      rw [allCountsFit, Bool.and_eq_true, countsFit_iff item, allCountsFit_iff items,
        Pattern.countsAll, List.forall_mem_append]

end

/-- A pattern whose counts fit has a source in the grammar. -/
theorem isExpression_anchored {p : Pattern} (fits : countsFit p)
    : IsExpression (anchored p) :=
  .anchored (isRow_source p fits)

-----------------------------------------------------------------------------------------
-- The grammar is read
-----------------------------------------------------------------------------------------

/-- Letters are the escaped form of the characters that they stand for, by induction on them. -/
theorem IsLetters.exists_eq_apply {text : List Char} (h : IsLetters text)
    : ∃ chars, text = escaping.apply chars := by
  induction h with
  | nil => exact ⟨[], rfl⟩
  | cons here _ ih =>
      obtain ⟨chars, rfl⟩ := ih
      cases here with
      | @plain c unlisted notEscape =>
          have plain : ¬ isSpecial c := by
            rw [isSpecial_iff, not_or]
            exact ⟨unlisted, notEscape⟩
          exact ⟨c :: chars, by rw [apply_cons, if_neg plain, List.singleton_append]⟩
      | @escaped c special =>
          refine ⟨c :: chars, ?_⟩
          rw [apply_cons, if_pos (isSpecial_iff.mpr special)]
          rfl

theorem IsLetter.head?_ne {text : List Char} (h : IsLetter text) (rest : List Char)
    : (text ++ rest).head? ≠ some '?' := by
  cases h with
  | @plain c unlisted =>
      intro same
      exact unlisted (Option.some.inj same ▸ by decide)
  | escaped => simp

/-- No piece begins with a question mark, by recursion on the grammar. -/
theorem IsPiece.head?_ne {text : List Char} (h : IsPiece text) (rest : List Char)
    : (text ++ rest).head? ≠ some '?' := by
  match text, h with
  | _, .letter isLetter => exact isLetter.head?_ne rest
  | _, .any | _, .choice _ _ | _, .nothing | _, .group _ | _, .unit _ =>
      simp [emptyClass, Expression.unit]
  | _, .repeated isPiece _ =>
      rw [List.append_assoc]
      exact isPiece.head?_ne _

theorem IsRow.head?_ne {row rest : List Char} (h : IsRow row) (hrest : rest.head? ≠ some '?')
    : (row ++ rest).head? ≠ some '?' := by
  cases h with
  | nil => exact hrest
  | cons here behind =>
      rw [List.append_assoc]
      exact here.head?_ne _

theorem IsLetter.exists_read {text : List Char} (h : IsLetter text)
    : ∃ r, ∀ (g : OpenGroups) rest, g.read (text ++ rest) = (g.add r).read rest := by
  cases h with
  | @plain c unlisted notEscape =>
      have plain : ¬ isSpecial c := by
        rw [isSpecial_iff, not_or]
        exact ⟨unlisted, notEscape⟩
      exact ⟨.one (.single c),
        fun g rest => OpenGroups.read_item (next?_of_not_isSpecial plain rest) g⟩
  | @escaped c special =>
      have special := isSpecial_iff.mpr special
      exact ⟨.one (.single c),
        fun g rest => OpenGroups.read_item (next?_of_isSpecial special rest) g⟩

/-- A row between parentheses is read as a group. -/
theorem read_enclosed {row : List Char} {rs : List Regex}
    (h : ∀ (g : OpenGroups) rest, g.read (row ++ rest) = (g.addAll rs).read rest)
    (opening : List Char) {captures : Bool}
    (opens : ∀ rest, Lexeme.next? (opening ++ (row ++ ')' :: rest))
      = some (.opening captures, row ++ ')' :: rest)) (g : OpenGroups) (rest : List Char)
    : g.read (opening ++ (row ++ ')' :: rest))
      = (g.add (.group captures (sequence rs))).read rest := by
  have closing : Lexeme.next? (')' :: rest) = some (.closing, rest) := rfl
  rw [OpenGroups.read_of_next? (opens rest)]
  change OpenGroups.read ⟨.begin captures, g.inner :: g.outer⟩ _ = _
  rw [h, OpenGroups.read_of_next? closing, OpenGroups.step_closing_addAll]
  rfl

mutual

/-- A piece is read as one item, by recursion on the grammar. -/
theorem IsPiece.exists_read {text : List Char} (h : IsPiece text)
    : ∃ r, ∀ (g : OpenGroups) rest, g.read (text ++ rest) = (g.add r).read rest := by
  match text, h with
  | _, .letter isLetter => exact isLetter.exists_read
  | _, .any => exact ⟨.one .any, fun g rest => OpenGroups.read_item rfl g⟩
  | _, .choice areLetters nonempty =>
      obtain ⟨chars, rfl⟩ := areLetters.exists_eq_apply
      cases chars with
      | nil => exact absurd rfl nonempty
      | cons c cs =>
          exact ⟨_, fun g rest => OpenGroups.read_item (next?_classSource (c :: cs) rest) g⟩
  | _, .nothing => exact ⟨_, fun g rest => OpenGroups.read_item (next?_classSource [] rest) g⟩
  | _, .group inside =>
      obtain ⟨rs, hrs⟩ := inside.exists_read
      refine ⟨.group true (sequence rs), ?_⟩
      intro g rest
      rw [List.append_assoc]
      refine read_enclosed hrs ['('] ?_ g rest
      intro rest
      exact next?_opening (inside.head?_ne (by simp))
  | _, .unit inside =>
      obtain ⟨rs, hrs⟩ := inside.exists_read
      refine ⟨.group false (sequence rs), ?_⟩
      intro g rest
      rw [Expression.unit, List.append_assoc, List.append_assoc]
      exact read_enclosed hrs ['(', '?', ':'] (fun _ => rfl) g rest
  | _, @IsPiece.repeated _ isPiece count fits =>
      obtain ⟨r, hr⟩ := isPiece.exists_read
      refine ⟨.atLeast count r, ?_⟩
      intro g rest
      rw [List.append_assoc, hr, read_quantifier, if_pos fits]

theorem IsRow.exists_read {row : List Char} (h : IsRow row)
    : ∃ rs, ∀ (g : OpenGroups) rest, g.read (row ++ rest) = (g.addAll rs).read rest := by
  match row, h with
  | _, .nil => exact ⟨[], fun _ _ => rfl⟩
  | _, .cons here behind =>
      obtain ⟨r, hr⟩ := here.exists_read
      obtain ⟨rs, hrs⟩ := behind.exists_read
      refine ⟨r :: rs, ?_⟩
      intro g rest
      rw [List.append_assoc, hr, hrs]
      rfl

end

/-- Every text of the grammar spells an expression. -/
theorem IsExpression.exists_ofSource? {source : List Char} (h : IsExpression source)
    : ∃ r, Regex.ofSource? source = some r := by
  obtain ⟨inside⟩ := h
  obtain ⟨rs, hrs⟩ := inside.exists_read
  exact ⟨_, by rw [ofSource?_between, hrs, close?_read_stop]⟩

end Expression

namespace Pattern

open Expression (IsExpression anchored countsFit)

/-- A pattern always has a source. If one of its counts is too large, the source spells no expression
and there is no matcher. Otherwise the source is in the grammar and spells an expression, so that
only the limits on expressions may still stand against a matcher. -/
theorem matcher_fails_iff_count_too_large (p : Pattern)
    : ∃ source, p.render Expression.renderer = .ok source
        ∧ ((∃ count ∈ p.counts, Lexeme.maxCount < count) ∧ Regex.ofSource? source = none
            ∧ p.matcher? = .error .invalidExpression
          ∨ (∀ count ∈ p.counts, count ≤ Lexeme.maxCount) ∧ IsExpression source
            ∧ ∃ r, Regex.ofSource? source = some r
              ∧ p.matcher? = if r.withinLimits then .ok ⟨source, r⟩
                else .error .invalidExpression) := by
  refine ⟨anchored p, Expression.render_eq p, ?_⟩
  rw [matcher?_eq, Matcher.ofSource?]
  cases hfits : countsFit p with
  | false =>
      have unspelled : Regex.ofSource? (anchored p) = none := by
        rw [Expression.ofSource?_anchored, hfits]
        rfl
      have tooLarge : ¬ ∀ count ∈ p.counts, count ≤ Lexeme.maxCount := by
        rw [← Expression.countsFit_iff, hfits]
        exact Bool.false_ne_true
      simp only [Classical.not_forall, Nat.not_le, exists_prop] at tooLarge
      exact .inl ⟨tooLarge, unspelled, by rw [unspelled]⟩
  | true =>
      have inGrammar := Expression.isExpression_anchored hfits
      obtain ⟨r, spelled⟩ := inGrammar.exists_ofSource?
      exact .inr ⟨(Expression.countsFit_iff p).mp hfits, inGrammar, r, spelled, by rw [spelled]⟩

end Pattern

end Wildcard
