import Wildcard.Proofs.Render.Source

/-! How the pieces of a source are read.
An escaped character is read back as itself, in a class and outside of one, and so is a character
that needs no escape. A class and a quantifier are each read back as one symbol.
-/

namespace Wildcard.Expression

/-- A character that is written with the escape in front. -/
def isSpecial (c : Char) : Bool := escaping.specials.contains c

theorem isSpecial_iff {c : Char}
    : isSpecial c ↔ c ∈ operators ∨ c = '\\' := by
  simp [isSpecial, escaping, Escaping.ofOperators, escape]

theorem apply_cons (c : Char) (cs : List Char)
    : escaping.apply (c :: cs)
      = if isSpecial c then '\\' :: c :: escaping.apply cs else c :: escaping.apply cs := by
  change (c :: cs).flatMap _ = _
  rw [List.flatMap_cons]
  unfold isSpecial
  split <;> rfl

/-- Escaped text does not begin with an operator. -/
theorem head?_apply_cons_ne {op : Char} (hop : op ∈ operators) (c : Char) (cs rest : List Char)
    : (escaping.apply (c :: cs) ++ rest).head? ≠ some op := by
  intro hhead
  rw [apply_cons] at hhead
  split at hhead
  · have same : '\\' = op := Option.some.inj hhead
    have unlisted : '\\' ∉ operators := by decide
    exact unlisted (same ▸ hop)
  · next plain =>
      have same : c = op := Option.some.inj hhead
      exact plain (isSpecial_iff.mpr (.inl (same ▸ hop)))

theorem head?_apply_ne {op : Char} (hop : op ∈ operators) {text rest : List Char}
    (hrest : rest.head? ≠ some op)
    : (escaping.apply text ++ rest).head? ≠ some op := by
  cases text with
  | nil => exact hrest
  | cons c cs => exact head?_apply_cons_ne hop c cs rest

-----------------------------------------------------------------------------------------
-- Characters outside of a class
-----------------------------------------------------------------------------------------

theorem escaped?_of_isSpecial {c : Char} (special : isSpecial c) (rest : List Char)
    : Regex.escaped? (c :: rest) = some (c, rest) := by
  have listed : c ∈ '\\' :: operators := by
    rcases isSpecial_iff.mp special with member | rfl
    · exact List.mem_cons_of_mem _ member
    · exact List.mem_cons_self
  have escapable : ('\\' :: operators).all fun c => c != 'x' && Regex.isEscapable c := by decide
  have ⟨notHex, escapable⟩ := Bool.and_eq_true_iff.mp (List.all_eq_true.mp escapable c listed)
  unfold Regex.escaped?
  split <;> simp_all

theorem next?_of_isSpecial {c : Char} (special : isSpecial c) (rest : List Char)
    : Lexeme.next? ('\\' :: c :: rest) = some (.one (.single c), rest) := by
  rw [Lexeme.next?, escaped?_of_isSpecial special]
  rfl

theorem not_mem_operators_of_not_isSpecial {c : Char} (plain : ¬ isSpecial c)
    : c ∉ operators ∧ c ≠ '\\' := by
  rw [isSpecial_iff, not_or] at plain
  exact plain

theorem next?_of_not_isSpecial {c : Char} (plain : ¬ isSpecial c) (rest : List Char)
    : Lexeme.next? (c :: rest) = some (.one (.single c), rest) := by
  have unlisted := not_mem_operators_of_not_isSpecial plain
  simp only [operators, List.mem_cons, not_or] at unlisted
  unfold Lexeme.next?
  split <;> simp_all

-----------------------------------------------------------------------------------------
-- Characters of a class
-----------------------------------------------------------------------------------------

/-- Without a hyphen after it, a character of a class is not the beginning of a range. -/
theorem classMember?_of_classChar? {text rest : List Char} {c : Char}
    (h : Regex.classChar? text = some (c, rest)) (hrest : rest.head? ≠ some '-')
    : Regex.classMember? text = some (.single c, rest) := by
  have noRange : Regex.afterRangeHyphen? rest = none := by
    unfold Regex.afterRangeHyphen?
    split <;> simp_all
  rw [Regex.classMember?, h]
  dsimp only
  rw [noRange]

theorem classItem?_of_isSpecial {c : Char} (special : isSpecial c) {rest : List Char}
    (hrest : rest.head? ≠ some '-')
    : Regex.classItem? ('\\' :: c :: rest) = some (.member (.single c) rest) := by
  have read : Regex.classChar? ('\\' :: c :: rest) = some (c, rest) :=
    escaped?_of_isSpecial special rest
  have member := classMember?_of_classChar? read hrest
  unfold Regex.classItem?
  split <;> simp_all

theorem classItem?_of_not_isSpecial {c : Char} (plain : ¬ isSpecial c) {rest : List Char}
    (hrest : rest.head? ≠ some '-')
    : Regex.classItem? (c :: rest) = some (.member (.single c) rest) := by
  have unlisted := not_mem_operators_of_not_isSpecial plain
  simp only [operators, List.mem_cons, not_or] at unlisted
  have read : Regex.classChar? (c :: rest) = some (c, rest) := by
    unfold Regex.classChar?
    split <;> simp_all
  have member := classMember?_of_classChar? read hrest
  unfold Regex.classItem?
  split <;> simp_all

theorem readClass_of_member {text rest : List Char} {set : CharClass}
    (h : Regex.classItem? text = some (.member set rest)) (outer : List Regex.OpenClass)
    (inner : Regex.OpenClass)
    : Regex.readClass outer inner text = Regex.readClass outer (inner.add set) rest := by
  rw [Regex.readClass]
  split <;> simp_all

theorem readClass_of_close {text rest : List Char}
    (h : Regex.classItem? text = some (.close rest)) (inner : Regex.OpenClass)
    : Regex.readClass [] inner text = some (inner.close, rest) := by
  rw [Regex.readClass]
  split <;> simp_all

/-- Escaped text up to a closing bracket adds its characters one by one, by induction on the
text. -/
theorem readClass_apply (negated : Bool) (members : List CharClass) (text rest : List Char)
    : Regex.readClass [] ⟨negated, members⟩ (escaping.apply text ++ ']' :: rest)
      = some (.bracket negated (members.reverse ++ text.map .single), rest) := by
  induction text generalizing members with
  | nil =>
      have closing : Regex.classItem? (']' :: rest) = some (.close rest) := rfl
      change Regex.readClass [] _ (']' :: rest) = _
      rw [readClass_of_close closing, Regex.OpenClass.close, List.map_nil, List.append_nil]
  | cons c cs ih =>
      have hrest : (escaping.apply cs ++ ']' :: rest).head? ≠ some '-' := by
        have listed : '-' ∈ operators := by decide
        exact head?_apply_ne listed (by simp)
      have added := ih (.single c :: members)
      rw [List.reverse_cons, List.append_assoc, List.singleton_append] at added
      rw [List.map_cons, ← added, apply_cons]
      split
      · next special => exact readClass_of_member (classItem?_of_isSpecial special hrest) _ _
      · next plain => exact readClass_of_member (classItem?_of_not_isSpecial plain hrest) _ _

/-- Only a caret, a bracket or a hyphen in front belongs to the opening of a class. -/
theorem begin_eq {text : List Char} (hcaret : text.head? ≠ some '^')
    (hbracket : text.head? ≠ some ']') (hhyphen : text.head? ≠ some '-')
    : Regex.OpenClass.begin text = (⟨false, []⟩, text) := by
  cases text with
  | nil => rfl
  | cons c cs =>
      simp only [List.head?_cons, ne_eq, Option.some.injEq] at hcaret hbracket hhyphen
      have noCaret : Regex.OpenClass.caret (c :: cs) = (false, c :: cs) := by
        unfold Regex.OpenClass.caret
        split <;> simp_all
      have noLeading : Regex.OpenClass.leading (c :: cs) = ([], c :: cs) := by
        unfold Regex.OpenClass.leading
        split <;> simp_all
      rw [Regex.OpenClass.begin, noCaret]
      dsimp only
      rw [noLeading]

/-- The set of characters that a choice stands for; without candidates it has no member. -/
def classOf : List Char → CharClass
  | [] => .bracket true [.range (Char.ofNat 0) (Char.ofNat 0x10ffff)]
  | c :: cs => .bracket false ((c :: cs).map .single)

theorem anyContains_map_single (candidates : List Char) (c : Char)
    : CharClass.anyContains (candidates.map .single) c ↔ c ∈ candidates := by
  induction candidates with
  | nil => simp [CharClass.anyContains]
  | cons d ds ih => simp [CharClass.anyContains, CharClass.contains, ih]

theorem contains_classOf (candidates : List Char) (c : Char)
    : (classOf candidates).contains c ↔ c ∈ candidates := by
  cases candidates with
  | nil =>
      have least : Char.ofNat 0 ≤ c := Nat.zero_le _
      have greatest : c ≤ Char.ofNat 0x10ffff := by
        have hval : c.toNat ≤ 0x10ffff := by
          rcases c.valid with hlow | hhigh
          · exact Nat.le_of_lt (Nat.lt_trans hlow (by decide))
          · exact Nat.le_of_lt_succ hhigh.2
        exact hval
      simp [classOf, CharClass.contains, CharClass.anyContains, least, greatest]
  | cons d ds =>
      simpa only [classOf, CharClass.contains, Bool.bne_false] using
        anyContains_map_single (d :: ds) c

theorem next?_classSource (candidates rest : List Char)
    : Lexeme.next? (classSource candidates ++ rest) = some (.one (classOf candidates), rest) := by
  cases candidates with
  | nil =>
      have range : Regex.classItem? (emptyClass.drop 2 ++ ']' :: rest)
          = some (.member (.range (Char.ofNat 0) (Char.ofNat 0x10ffff)) (']' :: rest)) := rfl
      have closing : Regex.classItem? (']' :: rest) = some (.close rest) := rfl
      have read : Regex.class? (emptyClass.tail ++ ']' :: rest) = some (classOf [], rest) := by
        change Regex.readClass [] ⟨true, []⟩ (emptyClass.drop 2 ++ ']' :: rest) = _
        rw [readClass_of_member range, readClass_of_close closing]
        rfl
      change Lexeme.spelled _ (Regex.class? (emptyClass.tail ++ ']' :: rest)) = _
      rw [read]
      rfl
  | cons c cs =>
      have opening : Regex.OpenClass.begin (escaping.apply (c :: cs) ++ ']' :: rest)
          = (⟨false, []⟩, escaping.apply (c :: cs) ++ ']' :: rest) :=
        begin_eq (head?_apply_cons_ne (by decide) _ _ _) (head?_apply_cons_ne (by decide) _ _ _)
          (head?_apply_cons_ne (by decide) _ _ _)
      have read : Regex.class? (escaping.apply (c :: cs) ++ ']' :: rest)
          = some (classOf (c :: cs), rest) := by
        rw [Regex.class?, opening]
        exact readClass_apply false [] (c :: cs) rest
      rw [classSource, List.append_assoc, List.cons_append, List.singleton_append, Lexeme.next?,
        read]
      rfl

-----------------------------------------------------------------------------------------
-- Quantifiers
-----------------------------------------------------------------------------------------

/-- A count in decimal digits is read back, unless it is too large for an expression. -/
theorem count?_toDigits (count : Nat) (rest : List Char)
    : Lexeme.count? (Nat.toDigits 10 count ++ ',' :: '}' :: rest)
      = if count ≤ Lexeme.maxCount then some (count, rest) else none := by
  have digits : ∀ c ∈ Nat.toDigits 10 count, c.isDigit := fun c hc =>
    Nat.isDigit_of_mem_toDigits (by decide) (by decide) hc
  have noDigit : Char.isDigit ',' = false := rfl
  have nonempty : (Nat.toDigits 10 count).isEmpty = false := by
    simpa only [List.isEmpty_eq_false_iff] using Nat.toDigits_ne_nil
  rw [Lexeme.count?, List.takeWhile_append_of_pos digits, List.dropWhile_append_of_pos digits]
  simp only [List.takeWhile_cons, List.dropWhile_cons, noDigit, Bool.false_eq_true, if_false,
    List.append_nil, nonempty, Bool.false_or, Nat.ofDigitChars_ten_toDigits, decide_eq_true_eq]
  split <;> split <;> first | rfl | omega

theorem next?_quantifier (count : Nat) (rest : List Char)
    : Lexeme.next? (quantifier count ++ rest)
      = if count ≤ Lexeme.maxCount then some (.atLeast count, rest) else none := by
  unfold quantifier
  split
  · rfl
  · rfl
  · rw [List.append_assoc, List.append_assoc, List.singleton_append, Lexeme.next?]
    change Lexeme.spelled _ (Lexeme.count? (_ ++ ',' :: '}' :: rest)) = _
    rw [count?_toDigits]
    split <;> rfl

end Wildcard.Expression
