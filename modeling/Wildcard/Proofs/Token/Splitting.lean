import Wildcard.Escaping
import Wildcard.Token

/-! How a text splits into tokens.
Every operator token is an operator of the alphabet. Escaped text is an ordinary run again, whatever
text follows it, as long as the operators of the reader are among the characters that the writer
escapes.
-/

namespace Wildcard

/-- A character in front of tokens is matched by itself where runs of characters are, whether or not
a run follows it. -/
theorem Token.matches_prepend {M : List Token → List Char → Prop}
    (htext : ∀ chars tokens text,
      M (.text chars :: tokens) text ↔ ∃ rest, text = chars ++ rest ∧ M tokens rest)
    (c : Char) (tokens : List Token) (text : List Char)
    : M (Token.prepend c tokens) text ↔ ∃ rest, text = c :: rest ∧ M tokens rest := by
  unfold Token.prepend
  split
  · next cs tokens =>
      simp only [htext]
      refine ⟨?_, ?_⟩
      · intro matched
        rcases matched with ⟨rest, rfl, matched⟩
        exact ⟨cs ++ rest, rfl, rest, rfl, matched⟩
      · intro matched
        rcases matched with ⟨_, rfl, rest, rfl, matched⟩
        exact ⟨rest, rfl, matched⟩
  · exact htext [c] _ text

namespace Alphabet

variable {a : Alphabet} {c : Char}

theorem tokenize_cons_of_operator (hop : a.operators.contains c)
    (plain : a.isEscape c = false) (cs : List Char)
    : a.tokenize (c :: cs) = .operator c :: a.tokenize cs := by
  rw [tokenize_cons_of_not_isEscape a plain, push, if_pos hop]

theorem tokenize_cons_of_ordinary (hc : ¬ a.operators.contains c)
    (plain : a.isEscape c = false) (cs : List Char)
    : a.tokenize (c :: cs) = Token.prepend c (a.tokenize cs) := by
  rw [tokenize_cons_of_not_isEscape a plain, push, if_neg hc]

/-- An escape at the very end is an ordinary character. -/
theorem tokenize_singleton_of_isEscape (escaping : a.isEscape c = true)
    : a.tokenize [c] = Token.prepend c (a.tokenize []) := by
  rw [tokenize.eq_def]
  simp only [escaping, if_true]
  rfl

theorem operator_mem_of_mem_prepend {op : Char} {tokens : List Token}
    (h : Token.operator op ∈ Token.prepend c tokens)
    : Token.operator op ∈ tokens := by
  unfold Token.prepend at h
  split at h <;> simpa using h

/-- An operator token is an operator of the alphabet and not its escape, by induction on how the
text splits. -/
theorem isOperator_of_mem_tokenize {op : Char} {text : List Char}
    (h : Token.operator op ∈ a.tokenize text)
    : a.operators.contains op ∧ a.isEscape op = false := by
  fun_induction tokenize a text with
  | case1 => simp at h
  | case2 => simp at h
  | case3 c _ d ds ih => exact ih (operator_mem_of_mem_prepend h)
  | case4 c cs plain ih =>
      unfold push at h
      split at h
      · next hop =>
          rcases List.mem_cons.mp h with same | member
          · cases same
            exact ⟨hop, Bool.eq_false_iff.mpr plain⟩
          · exact ih member
      · exact ih (operator_mem_of_mem_prepend h)

end Alphabet

namespace Escaping

/-- A reader knows the escape of a writer, and the writer escapes what the reader would take for an
operator or an escape. -/
structure ReadBy (e : Escaping) (a : Alphabet) (escape : Char) : Prop where
  writes : e.escape = some escape
  reads : a.escape = some escape
  escapeSpecial : e.specials.contains escape
  operatorsSpecial : ∀ op, a.operators.contains op → e.specials.contains op

/-- Escaped text is put in front of what follows character by character, by induction on the
text. -/
theorem ReadBy.tokenize_apply {e : Escaping} {a : Alphabet} {escape : Char}
    (h : e.ReadBy a escape) (text rest : List Char)
    : a.tokenize (e.apply text ++ rest) = text.foldr Token.prepend (a.tokenize rest) := by
  induction text with
  | nil =>
      rw [apply, h.writes]
      rfl
  | cons c cs ih =>
      have split : e.apply (c :: cs) ++ rest = e.apply [c] ++ (e.apply cs ++ rest) := by
        rw [← List.append_assoc, ← apply_append, List.singleton_append]
      have single : e.apply [c] = if e.specials.contains c then [escape, c] else [c] := by
        simp only [apply, h.writes, List.flatMap_cons, List.flatMap_nil, List.append_nil]
      rw [split, single, List.foldr_cons, ← ih]
      by_cases special : e.specials.contains c
      · have isEscape : a.isEscape escape = true := by simp [Alphabet.isEscape, h.reads]
        rw [if_pos special]
        exact Alphabet.tokenize_cons_cons_of_isEscape a isEscape c _
      · have notOperator : ¬ a.operators.contains c := fun hop => special (h.operatorsSpecial c hop)
        have notEscape : a.isEscape c = false := by
          have differs : escape ≠ c := fun same => special (same ▸ h.escapeSpecial)
          simp [Alphabet.isEscape, h.reads, differs]
        rw [if_neg special]
        exact Alphabet.tokenize_cons_of_ordinary notOperator notEscape _

end Escaping

end Wildcard
