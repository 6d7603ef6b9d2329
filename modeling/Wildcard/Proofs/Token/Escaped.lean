import Mathlib.Logic.Function.Basic
import Wildcard.Proofs.Token.Splitting

/-! Escaped text in front of other text.
Escaped text splits into one run, which goes before the tokens of whatever follows it, so that no
escaped text stands for two texts. The characters that an escape is written before are those that
are operators when the text is split without an escape.
-/

namespace Wildcard

namespace Token

/-- Tokens with a text in front: it joins the run that is there or is a run of its own. Without any
characters there is no such run. -/
def putBefore : List Char → List Token → List Token
  | [], tokens => tokens
  | c :: cs, .text chars :: tokens => .text (c :: cs ++ chars) :: tokens
  | c :: cs, tokens => .text (c :: cs) :: tokens

/-- Characters that are put in front one by one are put there together, by induction on them. -/
theorem foldr_prepend_eq_putBefore (text : List Char) (tokens : List Token)
    : text.foldr prepend tokens = putBefore text tokens := by
  induction text with
  | nil => rfl
  | cons c cs ih =>
      rw [List.foldr_cons, ih]
      match cs, tokens with
      | [], [] | [], .text _ :: _ | [], .operator _ :: _ => rfl
      | _ :: _, [] | _ :: _, .text _ :: _ | _ :: _, .operator _ :: _ => rfl

theorem flatMap_chars_putBefore (text : List Char) (tokens : List Token)
    : (putBefore text tokens).flatMap chars = text ++ tokens.flatMap chars := by
  match text, tokens with
  | [], _ | _ :: _, [] | _ :: _, .operator _ :: _ => rfl
  | _ :: _, .text _ :: _ => simp [putBefore, chars]

/-- A token in writing, with an escape before an operator. -/
def escapedWith (escape : Char) : Token → List Char
  | .text chars => chars
  | .operator op => [escape, op]

theorem flatMap_escapedWith_prepend (escape c : Char) (tokens : List Token)
    : (prepend c tokens).flatMap (escapedWith escape)
      = c :: tokens.flatMap (escapedWith escape) := by
  unfold prepend
  split <;> rfl

end Token

namespace Escaping

variable {e : Escaping} {a : Alphabet} {escape : Char}

/-- Text is escaped by splitting it at the special characters without any escape, by induction on
the text. -/
theorem apply_eq_flatMap_tokenize (h : e.escape = some escape) (text : List Char)
    : e.apply text
      = (Alphabet.tokenize ⟨none, e.specials⟩ text).flatMap (Token.escapedWith escape) := by
  rw [apply, h]
  dsimp only
  induction text with
  | nil => rfl
  | cons c cs ih =>
      rw [List.flatMap_cons, ih, Alphabet.tokenize_cons_of_not_isEscape _ rfl, Alphabet.push]
      split
      · rfl
      · rw [Token.flatMap_escapedWith_prepend, List.singleton_append]

/-- What is read with the escape of a writer does not come from two texts. -/
theorem ReadBy.apply_injective (h : e.ReadBy a escape)
    : Function.Injective e.apply := by
  intro s t same
  have split (text : List Char) : (a.tokenize (e.apply text)).flatMap Token.chars = text := by
    have alone := h.tokenize_apply text []
    rw [List.append_nil, Token.foldr_prepend_eq_putBefore] at alone
    rw [alone, Token.flatMap_chars_putBefore]
    exact List.append_nil text
  rw [← split s, same, split t]

/-- Escaped text splits into the tokens of what follows it with the text in front, for any operators
among the special characters and whatever follows. So it tells the text, and it is made of what is
written for the parts of the text. -/
theorem escaped_text_goes_before {escape : Char} {specials operators : CharSet}
    (special : escape ∈ specials) (known : ∀ op ∈ operators, op ∈ specials)
    : let e : Escaping := ⟨some escape, specials⟩
      let a : Alphabet := ⟨some escape, operators⟩
      (∀ text rest, a.tokenize (e.apply text ++ rest) = Token.putBefore text (a.tokenize rest))
        ∧ (∀ text, e.apply text
            = (Alphabet.tokenize ⟨none, specials⟩ text).flatMap (Token.escapedWith escape))
        ∧ Function.Injective e.apply
        ∧ ∀ s t, e.apply (s ++ t) = e.apply s ++ e.apply t := by
  intro e a
  have reads : e.ReadBy a escape := {
    writes := rfl
    reads := rfl
    escapeSpecial := CharSet.contains_iff_mem.mpr special
    operatorsSpecial := fun op hop =>
      CharSet.contains_iff_mem.mpr (known op (CharSet.contains_iff_mem.mp hop))
  }
  refine ⟨?_, fun text => apply_eq_flatMap_tokenize rfl text, reads.apply_injective, apply_append e⟩
  intro text rest
  rw [reads.tokenize_apply, Token.foldr_prepend_eq_putBefore]

/-- The escape may be an operator too, and the text may end with it. The run that follows is joined
if there is one. -/
theorem escaped_text_goes_before_escape
    : let e : Escaping := ⟨some '*', .ofList ['*', '?', '+']⟩
      let a : Alphabet := ⟨some '*', .ofList ['*', '?']⟩
      '*' ∈ e.specials ∧ (∀ op ∈ a.operators, op ∈ e.specials)
        ∧ e.apply ['a', '+', '*'] = ['a', '*', '+', '*', '*']
        ∧ a.tokenize (e.apply ['a', '+', '*'] ++ ['*', '?', '?'])
          = [.text ['a', '+', '*', '?'], .operator '?']
        ∧ a.tokenize (e.apply ['a', '+', '*'] ++ ['?', '*'])
          = [.text ['a', '+', '*'], .operator '?', .text ['*']]
        ∧ Function.Injective e.apply := by
  intro e a
  have special : '*' ∈ e.specials := by decide
  have known : ∀ op ∈ a.operators, op ∈ e.specials := by
    intro op hop
    exact CharSet.mem_ofList.mpr (List.mem_append_left ['+'] (CharSet.mem_ofList.mp hop))
  obtain ⟨goesBefore, -, injective, -⟩ := escaped_text_goes_before special known
  refine ⟨special, known, by decide, ?_, ?_, injective⟩
  · exact (goesBefore _ _).trans (by decide)
  · exact (goesBefore _ _).trans (by decide)

end Escaping

end Wildcard
