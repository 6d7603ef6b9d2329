import Wildcard.Proofs.Pattern.Matching
import Wildcard.Proofs.Sql92.Tokens
import Wildcard.Proofs.Unix.Glob

/-! An SQL92 expression matches as its characters say.
The characters of an expression have a direct meaning, which knows neither tokens nor patterns nor
regular expressions. Any text is an expression, and what is compiled from it keeps to that meaning.
-/

namespace Wildcard.Sql92

open Unix (firstThen firstThen_beq_iff firstThen_iff someRest someRest_iff)

-----------------------------------------------------------------------------------------
-- The direct meaning
-----------------------------------------------------------------------------------------

/-- Whether an expression accepts a text. An escape makes the next character stand for itself and
is no operator; at the very end it stands for itself. -/
def likeAccepts (escape : Option Char) : List Char → List Char → Bool
  | [], text => text.isEmpty
  | c :: cs, text =>
      if escape == some c then
        match cs with
        | [] => text == [c]
        | d :: ds => firstThen (· == d) (likeAccepts escape ds) text
      else
        match c with
        | '%' => someRest (likeAccepts escape cs) text
        | '_' => firstThen (fun _ => true) (likeAccepts escape cs) text
        | c => firstThen (· == c) (likeAccepts escape cs) text

-----------------------------------------------------------------------------------------
-- Tokens keep to the direct meaning
-----------------------------------------------------------------------------------------

theorem push_operator {escape : Option Char} {op : Char} (hop : op ∈ operators)
    (tokens : List Token)
    : (alphabet escape).push op tokens = .operator op :: tokens :=
  if_pos (CharSet.contains_ofList.mpr hop)

theorem push_ordinary {escape : Option Char} {c : Char} (hc : c ∉ operators)
    (tokens : List Token)
    : (alphabet escape).push c tokens = Token.prepend c tokens :=
  if_neg fun contained => hc (CharSet.contains_ofList.mp contained)

/-- The tokens of an expression match what its characters accept, by induction on how the expression
splits into tokens. -/
theorem tokensMatch_tokenize (escape : Option Char) (source text : List Char)
    : TokensMatch ((alphabet escape).tokenize source) text ↔ likeAccepts escape source text := by
  fun_induction Alphabet.tokenize (alphabet escape) source generalizing text with
  | case1 => simp only [tokensMatch_nil, likeAccepts, List.isEmpty_iff]
  | case2 c escaping =>
      have escaping : (escape == some c) = true := escaping
      rw [likeAccepts.eq_def]
      simp only [escaping, if_true, tokensMatch_text, tokensMatch_nil, exists_eq_right,
        List.append_nil, beq_iff_eq]
  | case3 c escaping d ds ih =>
      have escaping : (escape == some c) = true := escaping
      rw [likeAccepts.eq_def]
      simp only [escaping, if_true, tokensMatch_prepend, firstThen_beq_iff, ih]
  | case4 c cs plain ih =>
      have plain : (escape == some c) = false := Bool.eq_false_iff.mpr plain
      rw [likeAccepts.eq_def]
      simp only [plain, Bool.false_eq_true, if_false]
      split
      · have percent : '%' ∈ operators := by decide
        simp only [push_operator percent, tokensMatch_anyString, someRest_iff, ih]
      · have underscore : '_' ∈ operators := by decide
        simp only [push_operator underscore, tokensMatch_anyChar, firstThen_iff, true_and, ih]
      · next notPercent notUnderscore =>
          have ordinary : c ∉ operators := by
            simp only [operators, List.mem_cons, List.not_mem_nil, or_false, not_or]
            exact ⟨notPercent, notUnderscore⟩
          simp only [push_ordinary ordinary, tokensMatch_prepend, firstThen_beq_iff, ih]

/-- Any text is an expression, and what is compiled from it accepts the texts that its characters
accept and no others, whatever the escape character is. -/
theorem test_parse_eq_likeAccepts (escape : Option Char) (source : List Char)
    : ∃ p, parse escape source = .ok p
        ∧ ∀ m, p.matcher? = .ok m → ∀ text, m.test text = likeAccepts escape source text := by
  refine ⟨_, parse_eq_ok escape source, ?_⟩
  intro m compiled text
  rw [Bool.eq_iff_iff, Pattern.test_iff_matches compiled,
    matches_of_parse (parse_eq_ok escape source), tokensMatch_tokenize]

/-- With a percent sign as its escape, an expression has percent signs for characters, and a star
and a point stand for themselves in any expression. -/
theorem test_parse_escaped_percent
    : let source := ['a', '%', '%', '_', '*', '.', '%']
      let text := ['a', '%', 'b', '*', '.', '%']
      ∃ p m, parse (some '%') source = .ok p ∧ p.matcher? = .ok m
        ∧ m.test text = likeAccepts (some '%') source text
        ∧ likeAccepts (some '%') source text = true := by
  intro source text
  obtain ⟨p, parsed, accepted⟩ := test_parse_eq_likeAccepts (some '%') source
  have compiled : p.matcher? = .ok ⟨Expression.anchored p, Expression.expression p⟩ := by
    rw [parse_eq_ok] at parsed
    cases parsed
    exact Pattern.matcher?_eq_ok_iff.mpr ⟨by decide +kernel, by decide +kernel, rfl⟩
  exact ⟨p, _, parsed, compiled, accepted _ compiled text, by decide⟩

end Wildcard.Sql92
