import Wildcard.Proofs.Pattern.Matching
import Wildcard.Proofs.Token.Splitting
import Wildcard.Proofs.Unix.Tokens

/-! A wildcard matches as its characters say.
The characters of a wildcard have a direct meaning, which knows neither tokens nor patterns nor
expressions. What is compiled from a wildcard keeps to that meaning.
-/

namespace Wildcard.Unix

-----------------------------------------------------------------------------------------
-- The direct meaning
-----------------------------------------------------------------------------------------

/-- The characters up to the next closing one that is not escaped, without their escapes, and the
text after it. Without a closing character everything is inside.
-/
def upTo (escape : Option Char) (close : Char) : List Char → List Char × List Char
  | [] => ([], [])
  | c :: cs =>
      if escape == some c then
        match cs with
        | [] => ([c], [])
        | d :: ds =>
            let (inside, rest) := upTo escape close ds
            (d :: inside, rest)
      else if c = close then ([], cs)
      else
        let (inside, rest) := upTo escape close cs
        (c :: inside, rest)

theorem length_upTo_le (escape : Option Char) (close : Char) (text : List Char)
    : (upTo escape close text).2.length ≤ text.length := by
  fun_induction upTo escape close text with
  | case1 => exact Nat.le_refl _
  | case2 => exact Nat.zero_le _
  | case3 c _ d ds inside rest hrest ih =>
      rw [hrest] at ih
      exact Nat.le_succ_of_le (Nat.le_succ_of_le ih)
  | case4 => exact Nat.le_succ _
  | case5 c cs _ _ inside rest hrest ih =>
      rw [hrest] at ih
      exact Nat.le_succ_of_le ih

/-- Whether the first character passes a test and the rest is accepted. -/
def firstThen (test : Char → Bool) (accepts : List Char → Bool) : List Char → Bool
  | [] => false
  | c :: cs => test c && accepts cs

/-- Whether the text is accepted, or what is left of it after some characters. -/
def someRest (accepts : List Char → Bool) : List Char → Bool
  | [] => accepts []
  | c :: cs => accepts (c :: cs) || someRest accepts cs

/-- Whether a wildcard accepts a text. An escape makes the next character stand for itself and
is no operator; at the very end it stands for itself. -/
def globAccepts (escape : Option Char) : List Char → List Char → Bool
  | [], text => text.isEmpty
  | c :: cs, text =>
      if escape == some c then
        match cs with
        | [] => text == [c]
        | d :: ds => firstThen (· == d) (globAccepts escape ds) text
      else
        match c with
        | '*' => someRest (globAccepts escape cs) text
        | '?' => firstThen (fun _ => true) (globAccepts escape cs) text
        | '[' =>
            firstThen (upTo escape ']' cs).1.contains (globAccepts escape (upTo escape ']' cs).2)
              text
        | '"' =>
            (upTo escape '"' cs).1.isPrefixOf text
              && globAccepts escape (upTo escape '"' cs).2
                  (text.drop (upTo escape '"' cs).1.length)
        | ']' => text.isEmpty
        | c => firstThen (· == c) (globAccepts escape cs) text
termination_by glob => glob.length
decreasing_by
  all_goals simp only [List.length_cons]
  all_goals first
    | omega
    | exact Nat.lt_succ_of_le (length_upTo_le _ _ _)

theorem firstThen_iff {test : Char → Bool} {accepts : List Char → Bool} {text : List Char}
    : firstThen test accepts text ↔ ∃ c rest, text = c :: rest ∧ test c ∧ accepts rest := by
  cases text with
  | nil => simp [firstThen]
  | cons c cs =>
      rw [firstThen, Bool.and_eq_true]
      refine ⟨?_, ?_⟩
      · intro accepted
        exact ⟨c, cs, rfl, accepted⟩
      · intro accepted
        rcases accepted with ⟨_, _, same, accepted⟩
        obtain ⟨rfl, rfl⟩ := List.cons.inj same
        exact accepted

theorem firstThen_beq_iff {d : Char} {accepts : List Char → Bool} {text : List Char}
    : firstThen (· == d) accepts text ↔ ∃ rest, text = d :: rest ∧ accepts rest := by
  rw [firstThen_iff]
  refine ⟨?_, ?_⟩
  · intro accepted
    rcases accepted with ⟨c, rest, rfl, same, accepted⟩
    exact ⟨rest, congrArg (· :: rest) (eq_of_beq same), accepted⟩
  · intro accepted
    rcases accepted with ⟨rest, rfl, accepted⟩
    exact ⟨d, rest, rfl, BEq.rfl, accepted⟩

theorem someRest_iff {accepts : List Char → Bool} {text : List Char}
    : someRest accepts text ↔ ∃ skipped rest, text = skipped ++ rest ∧ accepts rest := by
  induction text with
  | nil =>
      refine ⟨?_, ?_⟩
      · intro accepted
        exact ⟨[], [], rfl, accepted⟩
      · intro accepted
        rcases accepted with ⟨_, _, htext, accepted⟩
        obtain ⟨rfl, rfl⟩ := List.append_eq_nil_iff.mp htext.symm
        exact accepted
  | cons c cs ih =>
      rw [someRest, Bool.or_eq_true, ih]
      refine ⟨?_, ?_⟩
      · intro accepted
        rcases accepted with accepted | ⟨skipped, rest, rfl, accepted⟩
        · exact ⟨[], c :: cs, rfl, accepted⟩
        · exact ⟨c :: skipped, rest, rfl, accepted⟩
      · intro accepted
        rcases accepted with ⟨skipped, rest, htext, accepted⟩
        rcases List.cons_eq_append_iff.mp htext with ⟨rfl, rfl⟩ | ⟨skipped, rfl, rfl⟩
        · exact .inl accepted
        · exact .inr ⟨skipped, rest, rfl, accepted⟩

theorem isPrefixOf_and_drop_iff {quoted text : List Char} {accepts : List Char → Bool}
    : (quoted.isPrefixOf text && accepts (text.drop quoted.length))
      ↔ ∃ rest, text = quoted ++ rest ∧ accepts rest := by
  rw [Bool.and_eq_true, List.isPrefixOf_iff_prefix]
  refine ⟨?_, ?_⟩
  · intro accepted
    rcases accepted with ⟨⟨rest, rfl⟩, accepted⟩
    rw [List.drop_left] at accepted
    exact ⟨rest, rfl, accepted⟩
  · intro accepted
    rcases accepted with ⟨rest, rfl, accepted⟩
    exact ⟨List.prefix_append quoted rest, by rwa [List.drop_left]⟩

-----------------------------------------------------------------------------------------
-- Tokens keep to the direct meaning
-----------------------------------------------------------------------------------------

theorem contains_operators_alphabet {escape : Option Char} {c : Char}
    : (alphabet escape).operators.contains c ↔ c ∈ operators :=
  CharSet.contains_ofList

theorem tokenize_operator {escape : Option Char} {op : Char} (hop : op ∈ operators)
    (plain : ¬ (escape == some op)) (cs : List Char)
    : (alphabet escape).tokenize (op :: cs) = .operator op :: (alphabet escape).tokenize cs :=
  Alphabet.tokenize_cons_of_operator (contains_operators_alphabet.mpr hop)
    (Bool.eq_false_iff.mpr plain) cs

theorem tokenize_ordinary {escape : Option Char} {c : Char} (hc : c ∉ operators)
    (plain : ¬ (escape == some c)) (cs : List Char)
    : (alphabet escape).tokenize (c :: cs) = Token.prepend c ((alphabet escape).tokenize cs) :=
  Alphabet.tokenize_cons_of_ordinary (fun contained => hc (contains_operators_alphabet.mp contained))
    (Bool.eq_false_iff.mpr plain) cs

theorem tokenize_escaped {escape : Option Char} {c : Char} (escaping : escape == some c)
    (d : Char) (ds : List Char)
    : (alphabet escape).tokenize (c :: d :: ds)
      = Token.prepend d ((alphabet escape).tokenize ds) := by
  have isEscape : (alphabet escape).isEscape c = true := escaping
  exact Alphabet.tokenize_cons_cons_of_isEscape _ isEscape d ds

theorem tokenize_escape_alone {escape : Option Char} {c : Char} (escaping : escape == some c)
    : (alphabet escape).tokenize [c] = Token.prepend c [] :=
  Alphabet.tokenize_singleton_of_isEscape escaping

/-- What is enclosed by tokens is enclosed by their characters, by induction on the text. -/
theorem enclosed_tokenize (escape : Option Char) {close : Char} (hclose : close ∈ operators)
    (text : List Char)
    : enclosed close ((alphabet escape).tokenize text)
      = ((upTo escape close text).1, (alphabet escape).tokenize (upTo escape close text).2) := by
  fun_induction upTo escape close text with
  | case1 => rfl
  | case2 c escaping =>
      rw [tokenize_escape_alone escaping, enclosed_prepend]
      rfl
  | case3 c escaping d ds inside rest hrest ih =>
      rw [hrest] at ih
      rw [tokenize_escaped escaping, enclosed_prepend, ih]
  | case4 cs plain =>
      rw [tokenize_operator hclose plain, enclosed_close]
  | case5 c cs plain hne inside rest hrest ih =>
      rw [hrest] at ih
      by_cases hop : c ∈ operators
      · rw [tokenize_operator hop plain, enclosed_operator hne, ih]
      · rw [tokenize_ordinary hop plain, enclosed_prepend, ih]

/-- The tokens of a wildcard match what its characters accept, by induction on the length of the
wildcard. -/
theorem tokensMatch_tokenize (escape : Option Char) (glob text : List Char)
    : TokensMatch ((alphabet escape).tokenize glob) text ↔ globAccepts escape glob text := by
  induction hlength : glob.length using Nat.strongRecOn generalizing glob text with
  | ind length ih =>
      subst hlength
      cases glob with
      | nil =>
          rw [globAccepts]
          simp [Alphabet.tokenize]
      | cons c cs =>
          -- whatever is left of the wildcard is shorter, also behind a bracket or a quote
          have shorter {rest : List Char} (hle : rest.length ≤ cs.length) (text : List Char)
              : TokensMatch ((alphabet escape).tokenize rest) text ↔ globAccepts escape rest text :=
            ih rest.length (Nat.lt_succ_of_le hle) rest text rfl
          rw [globAccepts.eq_def]
          dsimp only
          split
          · next escaping =>
              cases cs with
              | nil =>
                  rw [tokenize_escape_alone escaping, tokensMatch_prepend, beq_iff_eq]
                  simp only [tokensMatch_nil, exists_eq_right]
              | cons d ds =>
                  have shorter (text : List Char)
                      : TokensMatch ((alphabet escape).tokenize ds) text
                        ↔ globAccepts escape ds text :=
                    shorter (Nat.le_succ _) text
                  rw [tokenize_escaped escaping, tokensMatch_prepend, firstThen_beq_iff]
                  simp only [shorter]
          · next plain =>
              split
              · rw [tokenize_operator (by decide) plain, tokensMatch_anyString, someRest_iff]
                simp only [shorter (Nat.le_refl _)]
              · rw [tokenize_operator (by decide) plain, tokensMatch_anyChar, firstThen_iff]
                simp only [shorter (Nat.le_refl _), true_and]
              · rw [tokenize_operator (by decide) plain, tokensMatch_opening, firstThen_iff,
                  enclosed_tokenize escape (by decide)]
                simp only [shorter (length_upTo_le _ _ _), List.contains_iff_mem]
              · rw [tokenize_operator (by decide) plain, tokensMatch_quote,
                  isPrefixOf_and_drop_iff, enclosed_tokenize escape (by decide)]
                simp only [shorter (length_upTo_le _ _ _)]
              · rw [tokenize_operator (by decide) plain, tokensMatch_of_item?_eq_none rfl,
                  List.isEmpty_iff]
              · next notStar notQuestion notOpening notQuote notClosing =>
                  have ordinary : c ∉ operators := by
                    simp only [operators, List.mem_cons, List.not_mem_nil, or_false, not_or]
                    exact ⟨notStar, notQuestion, notOpening, notClosing, notQuote⟩
                  rw [tokenize_ordinary ordinary plain, tokensMatch_prepend, firstThen_beq_iff]
                  simp only [shorter (Nat.le_refl _)]

/-- A compiled wildcard accepts the texts that its characters accept and no others, whatever the
escape character is. -/
theorem test_parse_eq_globAccepts (escape : Option Char) (glob : List Char) {m : Matcher}
    (h : (parse (alphabet escape) glob).matcher? = .ok m) (text : List Char)
    : m.test text = globAccepts escape glob text := by
  rw [Bool.eq_iff_iff, Pattern.test_iff_matches h, matches_parse, tokensMatch_tokenize]

/-- With a star as its escape, a wildcard has a star for a character, a closing bracket in a class
and a question mark in an open quotation. -/
theorem test_parse_escaped_operators
    : let glob := ['a', '*', '*', '[', 'b', '*', ']', 'c', ']', '"', '?']
      let text := ['a', '*', ']', '?']
      let p := parse (alphabet (some '*')) glob
      let m : Matcher := ⟨Expression.anchored p, Expression.expression p⟩
      p.matcher? = .ok m
        ∧ m.test text = globAccepts (some '*') glob text
        ∧ globAccepts (some '*') glob text = true := by
  intro glob text p m
  have compiled : p.matcher? = .ok m :=
    Pattern.matcher?_eq_ok_iff.mpr ⟨by decide +kernel, by decide +kernel, rfl⟩
  exact ⟨compiled, test_parse_eq_globAccepts (some '*') glob compiled text, by decide +kernel⟩

end Wildcard.Unix
