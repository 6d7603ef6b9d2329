import Wildcard.Proofs.Render.Reading

/-! Reading a source back.
The source of a pattern is read back as an expression of the same shape, whatever stands around
it. The only obstacle is a count that is too large for an expression.
-/

namespace Wildcard

namespace Regex.OpenGroups

/-- Adds expressions in a row to the group under way. -/
def addAll (g : OpenGroups) (rs : List Regex) : OpenGroups := rs.foldl add g

/-- Takes all the symbols of a text. -/
def read (g : OpenGroups) (text : List Char) : Option OpenGroups :=
  (Lexeme.scan text).bind fun lexemes => lexemes.foldlM step g

theorem addAll_append (g : OpenGroups) (rs ts : List Regex)
    : g.addAll (rs ++ ts) = (g.addAll rs).addAll ts :=
  List.foldl_append

/-- Only the items of the innermost group grow, by induction on what is added. -/
theorem addAll_eq (g : OpenGroups) (rs : List Regex)
    : g.addAll rs = ⟨{ g.inner with items := rs.reverse ++ g.inner.items }, g.outer⟩ := by
  induction rs generalizing g with
  | nil => rfl
  | cons r rs ih =>
      change (g.add r).addAll rs = _
      rw [ih, List.reverse_cons, List.append_assoc]
      rfl

/-- A group that has got all of its items is their sequence. -/
theorem close_addAll (captures : Bool) (outer : List OpenGroup) (rs : List Regex)
    : ((OpenGroups.mk (.begin captures) outer).addAll rs).inner.close = sequence rs := by
  rw [addAll_eq, OpenGroup.close, OpenGroup.nextBranch]
  simp only [OpenGroup.begin, List.append_nil, List.reverse_reverse, List.reverse_cons,
    List.reverse_nil, List.nil_append, choice]

/-- A group between its parentheses is one more item of the group around it. -/
theorem step_closing_addAll (captures : Bool) (g : OpenGroups) (rs : List Regex)
    : step ((OpenGroups.mk (.begin captures) (g.inner :: g.outer)).addAll rs) .closing
      = some (g.add (.group captures (sequence rs))) := by
  have closed := close_addAll captures (g.inner :: g.outer) rs
  rw [addAll_eq] at closed ⊢
  rw [step, closed]
  rfl

theorem read_nil (g : OpenGroups)
    : g.read [] = some g := by
  rw [read, Lexeme.scan]
  rfl

/-- The first symbol is taken before the rest is read. -/
theorem read_of_next? {text rest : List Char} {lexeme : Lexeme}
    (h : Lexeme.next? text = some (lexeme, rest)) (g : OpenGroups)
    : g.read text = (g.step lexeme).bind (·.read rest) := by
  rw [read, Lexeme.scan_of_next? h]
  cases hscan : Lexeme.scan rest with
  | none => cases g.step lexeme <;> simp [read, hscan]
  | some lexemes =>
      simp only [Option.map_some, Option.bind_some, List.foldlM_cons, read, hscan]
      rfl

theorem read_of_next?_eq_none {c : Char} {cs : List Char} (h : Lexeme.next? (c :: cs) = none)
    (g : OpenGroups)
    : g.read (c :: cs) = none := by
  rw [read, Lexeme.scan]
  split
  · rfl
  · next hsome => cases h.symm.trans hsome

/-- An item that is one symbol. -/
theorem read_item {text rest : List Char} {set : CharClass}
    (h : Lexeme.next? text = some (.one set, rest)) (g : OpenGroups)
    : g.read text = (g.add (.one set)).read rest := by
  rw [read_of_next? h]
  rfl

end Regex.OpenGroups

namespace Expression

open Regex (OpenGroups sequence)

-----------------------------------------------------------------------------------------
-- The expression that a pattern becomes
-----------------------------------------------------------------------------------------

/-- The characters of a text one after the other. -/
def letters (text : List Char) : List Regex := text.map fun c => .one (.single c)

mutual

/-- The items that a pattern is read back as, given whether it is the body of a repetition. -/
def parts (repeats : Bool) : Pattern → List Regex
  | .empty => if repeats then [.group false .empty] else []
  | .anyChar => [.one .any]
  | .literal text =>
      if repeats && text.length != 1 then [.group false (sequence (letters text))]
      else letters text
  | .oneOf candidates => [.one (classOf candidates)]
  | .group items => [.group true (sequence (partsAll items))]
  | .atLeast body count => [.atLeast count (sequence (parts true body))]

def partsAll : List Pattern → List Regex
  | [] => []
  | item :: items => parts false item ++ partsAll items

end

/-- The expression that a source between anchors is read back as. -/
def expression (p : Pattern) : Regex := sequence (.start :: parts false p ++ [.stop])

mutual

/-- Whether every count is small enough for an expression. -/
def countsFit : Pattern → Bool
  | .empty | .anyChar | .literal _ | .oneOf _ => true
  | .group items => allCountsFit items
  | .atLeast body count => countsFit body && count ≤ Lexeme.maxCount

def allCountsFit : List Pattern → Bool
  | [] => true
  | item :: items => countsFit item && allCountsFit items

end

/-- The body of a repetition is a single item. -/
theorem exists_parts_eq_singleton (p : Pattern)
    : ∃ r, parts true p = [r] := by
  cases p with
  | literal text =>
      rw [parts]
      split
      · exact ⟨_, rfl⟩
      · next single =>
          have one : text.length = 1 := by simpa using single
          obtain ⟨c, rfl⟩ := List.length_eq_one_iff.mp one
          exact ⟨_, rfl⟩
  | _ => exact ⟨_, rfl⟩

-----------------------------------------------------------------------------------------
-- The pieces of a source
-----------------------------------------------------------------------------------------

/-- Escaped text is read as its characters, by induction on the text. -/
theorem read_apply (g : OpenGroups) (text rest : List Char)
    : g.read (escaping.apply text ++ rest) = (g.addAll (letters text)).read rest := by
  induction text generalizing g with
  | nil => rfl
  | cons c cs ih =>
      have added := ih (g.add (.one (.single c)))
      rw [apply_cons]
      split
      · next special =>
          exact (OpenGroups.read_item (next?_of_isSpecial special _) g).trans added
      · next plain =>
          exact (OpenGroups.read_item (next?_of_not_isSpecial plain _) g).trans added

/-- A text as one unit is read as a group that captures nothing. -/
theorem read_unit (g : OpenGroups) (text rest : List Char)
    : g.read (unit (escaping.apply text) ++ rest)
      = (g.add (.group false (sequence (letters text)))).read rest := by
  have opening : Lexeme.next? (unit (escaping.apply text) ++ rest)
      = some (.opening false, escaping.apply text ++ ')' :: rest) := by
    simp only [unit, List.append_assoc, List.cons_append, List.nil_append, Lexeme.next?]
  have closing : Lexeme.next? (')' :: rest) = some (.closing, rest) := rfl
  rw [OpenGroups.read_of_next? opening]
  change OpenGroups.read ⟨.begin false, g.inner :: g.outer⟩ _ = _
  rw [read_apply, OpenGroups.read_of_next? closing, OpenGroups.step_closing_addAll]
  rfl

/-- A quantifier repeats the last item, unless its count is too large. -/
theorem read_quantifier (g : OpenGroups) (r : Regex) (count : Nat) (rest : List Char)
    : (g.add r).read (quantifier count ++ rest)
      = if count ≤ Lexeme.maxCount then (g.add (.atLeast count r)).read rest else none := by
  have symbol := next?_quantifier count rest
  split at symbol
  · next fits =>
      rw [OpenGroups.read_of_next? symbol, if_pos fits]
      rfl
  · next tooLarge =>
      rw [if_neg tooLarge]
      cases htext : quantifier count ++ rest with
      | nil =>
          unfold quantifier at htext
          split at htext <;> simp at htext
      | cons c cs => exact OpenGroups.read_of_next?_eq_none (htext ▸ symbol) _

-----------------------------------------------------------------------------------------
-- A whole source
-----------------------------------------------------------------------------------------

mutual

/-- A source never begins with a question mark, so a group is never taken for a special one. -/
theorem head?_source_ne (repeats : Bool) (p : Pattern) {rest : List Char}
    (hrest : rest.head? ≠ some '?')
    : (source repeats p ++ rest).head? ≠ some '?' := by
  cases p with
  | empty =>
      rw [source]
      split
      · simp [unit]
      · exact hrest
  | anyChar => simp [source]
  | literal text =>
      rw [source]
      split
      · simp [unit]
      · exact head?_apply_ne (by decide) hrest
  | oneOf candidates => cases candidates <;> simp [source, classSource, emptyClass]
  | group items => simp [source]
  | atLeast body count =>
      rw [source, List.append_assoc]
      apply head?_source_ne true body
      unfold quantifier
      split <;> simp

theorem head?_sourceAll_ne (items : List Pattern) {rest : List Char}
    (hrest : rest.head? ≠ some '?')
    : (sourceAll items ++ rest).head? ≠ some '?' := by
  cases items with
  | nil => exact hrest
  | cons item items =>
      rw [sourceAll, List.append_assoc]
      exact head?_source_ne false item (head?_sourceAll_ne items hrest)

end

/-- A parenthesis before anything but a question mark opens a group that captures. -/
theorem next?_opening {rest : List Char} (hrest : rest.head? ≠ some '?')
    : Lexeme.next? ('(' :: rest) = some (.opening true, rest) := by
  rw [Lexeme.next?]
  · intro tail htext
    simp [htext] at hrest
  · intro tail htext
    simp [htext] at hrest

mutual

/-- A source is read as the items of its pattern, by induction on the pattern. -/
theorem read_source (repeats : Bool) (p : Pattern) (g : OpenGroups) (rest : List Char)
    : g.read (source repeats p ++ rest)
      = if countsFit p then (g.addAll (parts repeats p)).read rest else none := by
  cases p with
  | empty =>
      cases repeats with
      | false => rfl
      | true => exact read_unit g [] rest
  | anyChar => exact OpenGroups.read_item rfl g
  | literal text =>
      rw [source, parts]
      split
      · exact read_unit g text rest
      · exact read_apply g text rest
  | oneOf candidates => exact OpenGroups.read_item (next?_classSource candidates rest) g
  | group items =>
      have closed : (')' :: rest).head? ≠ some '?' := by simp
      have opening := next?_opening (head?_sourceAll_ne items closed)
      have closing : Lexeme.next? (')' :: rest) = some (.closing, rest) := rfl
      rw [source, List.append_assoc, List.cons_append, List.singleton_append,
        OpenGroups.read_of_next? opening]
      change OpenGroups.read ⟨.begin true, g.inner :: g.outer⟩ _ = _
      rw [read_sourceAll items, countsFit]
      split
      · rw [OpenGroups.read_of_next? closing, OpenGroups.step_closing_addAll]
        rfl
      · rfl
  | atLeast body count =>
      obtain ⟨r, hr⟩ := exists_parts_eq_singleton body
      rw [source, List.append_assoc, read_source true body, parts, hr]
      change (if countsFit body then (g.add r).read (quantifier count ++ rest) else none) = _
      rw [read_quantifier, countsFit]
      by_cases hbody : countsFit body <;> by_cases hcount : count ≤ Lexeme.maxCount <;>
        simp only [hbody, hcount, Bool.true_and, Bool.false_and, decide_true, decide_false,
          if_true, if_false, Bool.false_eq_true]
      all_goals rfl

theorem read_sourceAll (items : List Pattern) (g : OpenGroups) (rest : List Char)
    : g.read (sourceAll items ++ rest)
      = if allCountsFit items then (g.addAll (partsAll items)).read rest else none := by
  cases items with
  | nil => rfl
  | cons item items =>
      rw [sourceAll, List.append_assoc, read_source false item, read_sourceAll items, partsAll,
        OpenGroups.addAll_append, allCountsFit]
      cases countsFit item <;> rfl

end

/-- Between anchors, a row is read behind the first anchor and before the last one. -/
theorem ofSource?_between (row : List Char)
    : Regex.ofSource? ('^' :: row ++ ['$'])
      = ((OpenGroups.empty.addAll [.start]).read (row ++ ['$'])).bind OpenGroups.close? := by
  have start : Lexeme.next? ('^' :: row ++ ['$']) = some (.start, row ++ ['$']) := rfl
  have whole : Regex.ofSource? ('^' :: row ++ ['$'])
      = (OpenGroups.empty.read ('^' :: row ++ ['$'])).bind OpenGroups.close? := by
    rw [OpenGroups.read, Option.bind_assoc]
    rfl
  rw [whole, OpenGroups.read_of_next? start]
  rfl

/-- The last anchor ends the expression. -/
theorem close?_read_stop (rs : List Regex)
    : (((OpenGroups.empty.addAll [.start]).addAll rs).read ['$']).bind OpenGroups.close?
      = some (Regex.sequence (.start :: rs ++ [.stop])) := by
  have stop : Lexeme.next? ['$'] = some (.stop, []) := rfl
  have closed := OpenGroups.close_addAll false [] (.start :: rs ++ [.stop])
  rw [OpenGroups.addAll_eq] at closed
  rw [← OpenGroups.addAll_append, OpenGroups.read_of_next? stop]
  change (OpenGroups.read (OpenGroups.addAll _ [.stop]) []).bind _ = _
  rw [OpenGroups.read_nil, ← OpenGroups.addAll_append, Option.bind_some, OpenGroups.addAll_eq]
  exact congrArg some closed

/-- A source between anchors spells the expression of its pattern, unless a count is too large. -/
theorem ofSource?_anchored (p : Pattern)
    : Regex.ofSource? (anchored p) = if countsFit p then some (expression p) else none := by
  rw [anchored, ofSource?_between, read_source]
  split
  · exact close?_read_stop (parts false p)
  · rfl

end Expression

end Wildcard
