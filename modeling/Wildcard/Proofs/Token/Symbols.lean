import Wildcard.Proofs.Token.Runs

/-! The tokens of a text, character by character.
A character that no escape takes away is ordinary or an operator. The tokens of a text are its
operators and its longest runs of ordinary characters, and no other tokens without empty or
neighbouring runs stand for the same characters.
-/

namespace Wildcard

/-- What a character of a text is taken for. -/
inductive Symbol where
  | ordinary (c : Char)
  | operator (op : Char)

namespace Symbol

def char : Symbol → Char
  | .ordinary c => c
  | .operator op => op

/-- Puts a symbol in front of tokens: an ordinary character joins a run, an operator stands alone. -/
def join : Symbol → List Token → List Token
  | .ordinary c, tokens => Token.prepend c tokens
  | .operator op, tokens => .operator op :: tokens

end Symbol

/-- The symbols that a token is made of. -/
def Token.symbols : Token → List Symbol
  | .text chars => chars.map .ordinary
  | .operator op => [.operator op]

/-- What the characters of a text are taken for. An escape makes the character after it ordinary
and is not a symbol itself, unless it is the last character, which is ordinary. -/
def Alphabet.symbols (a : Alphabet) : List Char → List Symbol
  | [] => []
  | c :: cs =>
      if a.isEscape c then
        match cs with
        | [] => [.ordinary c]
        | d :: ds => .ordinary d :: symbols a ds
      else (if a.operators.contains c then .operator c else .ordinary c) :: symbols a cs

/-- A text without its escapes. An escape keeps the character after it, and the last character is
kept in any case. -/
def withoutEscapes (escape : Option Char) : List Char → List Char
  | [] => []
  | c :: cs =>
      if escape == some c then
        match cs with
        | [] => [c]
        | d :: ds => d :: withoutEscapes escape ds
      else c :: withoutEscapes escape cs

theorem withoutEscapes_none (text : List Char)
    : withoutEscapes none text = text := by
  induction text with
  | nil => rfl
  | cons c cs ih =>
      have plain : (none == some c) = false := rfl
      rw [withoutEscapes.eq_def]
      simp only [plain, Bool.false_eq_true, if_false, ih]

-----------------------------------------------------------------------------------------
-- Symbols and tokens in runs are the same
-----------------------------------------------------------------------------------------

namespace Token

variable {tokens : List Token}

theorem chars_eq_map_char (token : Token)
    : token.chars = token.symbols.map Symbol.char := by
  cases token with
  | text run =>
      rw [symbols, List.map_map]
      exact (List.map_id run).symm
  | operator op => rfl

theorem flatMap_symbols_prepend (c : Char) (tokens : List Token)
    : (prepend c tokens).flatMap symbols = .ordinary c :: tokens.flatMap symbols := by
  unfold prepend
  split <;> rfl

/-- Joined symbols are still the same symbols, by induction on them. -/
theorem flatMap_symbols_foldr_join (symbols : List Symbol)
    : (symbols.foldr Symbol.join []).flatMap Token.symbols = symbols := by
  induction symbols with
  | nil => rfl
  | cons symbol symbols ih =>
      rw [List.foldr_cons]
      cases symbol with
      | ordinary c => rw [Symbol.join, flatMap_symbols_prepend, ih]
      | operator op => rw [Symbol.join, List.flatMap_cons, ih, Token.symbols, List.singleton_append]

/-- Tokens in runs are joined again from their symbols, by induction on the tokens. -/
theorem InRuns.foldr_join_symbols (h : InRuns tokens)
    : (tokens.flatMap symbols).foldr Symbol.join [] = tokens := by
  induction tokens with
  | nil => rfl
  | cons token tokens ih =>
      rw [List.flatMap_cons, List.foldr_append, ih h.tail]
      cases token with
      | text chars =>
          rw [symbols, List.foldr_map]
          exact foldr_prepend_eq_cons_text h.ne_nil h.not_isText_head?
      | operator op => rfl

end Token

-----------------------------------------------------------------------------------------
-- The symbols of a text
-----------------------------------------------------------------------------------------

namespace Alphabet

variable {a : Alphabet} {text : List Char} {tokens : List Token}

/-- The tokens of a text are joined from its symbols, by induction on how the text splits. -/
theorem tokenize_eq_foldr_join (a : Alphabet) (text : List Char)
    : a.tokenize text = (a.symbols text).foldr Symbol.join [] := by
  fun_induction tokenize a text with
  | case1 => rfl
  | case2 c escaping => simp [symbols, escaping, Symbol.join, Token.prepend]
  | case3 c escaping d ds ih =>
      rw [symbols.eq_def]
      simp only [escaping, if_true, List.foldr_cons, Symbol.join, ih]
  | case4 c cs plain ih =>
      rw [symbols.eq_def]
      simp only [plain, Bool.false_eq_true, if_false, List.foldr_cons, ← ih]
      unfold push
      split <;> rfl

/-- The tokens of a text are the only ones in runs that are made of its symbols. -/
theorem eq_tokenize_iff
    : tokens = a.tokenize text
      ↔ Token.InRuns tokens ∧ tokens.flatMap Token.symbols = a.symbols text := by
  refine ⟨?_, ?_⟩
  · rintro rfl
    refine ⟨a.inRuns_tokenize text, ?_⟩
    rw [tokenize_eq_foldr_join, Token.flatMap_symbols_foldr_join]
  · rintro ⟨runs, same⟩
    rw [tokenize_eq_foldr_join, ← same, runs.foldr_join_symbols]

/-- The symbols of a text are its characters without the escapes, by induction on the text. -/
theorem map_char_symbols (a : Alphabet) (text : List Char)
    : (a.symbols text).map Symbol.char = withoutEscapes a.escape text := by
  fun_induction symbols a text with
  | case1 => rfl
  | case2 c escaping =>
      have escaping : (a.escape == some c) = true := escaping
      simp [withoutEscapes, escaping, Symbol.char]
  | case3 c escaping d ds ih =>
      have escaping : (a.escape == some c) = true := escaping
      rw [withoutEscapes.eq_def]
      simp only [escaping, if_true, List.map_cons, Symbol.char, ih]
  | case4 c cs plain ih =>
      have plain : (a.escape == some c) = false := Bool.eq_false_iff.mpr plain
      rw [withoutEscapes.eq_def]
      simp only [plain, Bool.false_eq_true, if_false, List.map_cons, ih]
      split <;> rfl

/-- The characters of the tokens are those of the text without the escapes. -/
theorem flatMap_chars_tokenize (a : Alphabet) (text : List Char)
    : (a.tokenize text).flatMap Token.chars = withoutEscapes a.escape text := by
  have chars : Token.chars = fun token => token.symbols.map Symbol.char :=
    funext Token.chars_eq_map_char
  rw [chars, ← List.map_flatMap, (eq_tokenize_iff.mp rfl).2, map_char_symbols]

end Alphabet

end Wildcard
