import Wildcard.Regex.Bracket

/-! The symbols of a regular expression.
A class in brackets, a count in braces and the opening of a group that captures nothing are one
symbol each.
-/

namespace Wildcard

inductive Lexeme where
  | one (set : CharClass)
  | start
  | stop
  | opening (captures : Bool)
  | closing
  | bar
  | atLeast (count : Nat)

namespace Lexeme

open Regex

/-- The largest count that an expression can hold: the largest unsigned number of 32 bits. -/
def maxCount : Nat := 0xffffffff

/-- The count whose opening brace stands just before the text, and the text after its closing
brace. -/
def count? (text : List Char) : Option (Nat × List Char) :=
  let digits := text.takeWhile Char.isDigit
  match text.dropWhile Char.isDigit with
  | ',' :: '}' :: rest =>
      let count := Nat.ofDigitChars 10 digits 0
      if digits.isEmpty || maxCount < count then none else some (count, rest)
  | _ => none

theorem length_lt_of_count? {text rest : List Char} {count : Nat}
    (h : count? text = some (count, rest))
    : rest.length < text.length := by
  have hlen := length_dropWhile_le Char.isDigit text
  unfold count? at h
  dsimp only at h
  split at h
  · next tail hdrop =>
      split at h
      · exact absurd h nofun
      · simp only [Option.some.injEq, Prod.mk.injEq] at h
        simp only [hdrop, List.length_cons, h.2] at hlen
        omega
  · exact absurd h nofun

/-- A symbol that is spelled by what follows its first character, with the text after it. -/
def spelled {α : Type} (symbol : α → Lexeme) (read : Option (α × List Char))
    : Option (Lexeme × List Char) :=
  read.map fun (value, rest) => (symbol value, rest)

/-- The symbol at the front of a text, and the text after it. -/
def next? : List Char → Option (Lexeme × List Char)
  | [] => none
  | '(' :: '?' :: ':' :: rest => some (.opening false, rest)
  | '(' :: '?' :: _ => none
  | '(' :: rest => some (.opening true, rest)
  | ')' :: rest => some (.closing, rest)
  | '|' :: rest => some (.bar, rest)
  | '^' :: rest => some (.start, rest)
  | '$' :: rest => some (.stop, rest)
  | '.' :: rest => some (.one .any, rest)
  | '*' :: rest => some (.atLeast 0, rest)
  | '+' :: rest => some (.atLeast 1, rest)
  | '?' :: _ => none
  | '{' :: text => spelled .atLeast (count? text)
  | '[' :: text => spelled .one (class? text)
  | '\\' :: text => spelled (.one <| .single ·) (escaped? text)
  | c :: rest => some (.one (.single c), rest)

theorem eq_some_of_spelled {α : Type} {symbol : α → Lexeme} {read : Option (α × List Char)}
    {lexeme : Lexeme} {rest : List Char} (h : spelled symbol read = some (lexeme, rest))
    : ∃ value, read = some (value, rest) := by
  obtain ⟨⟨value, tail⟩, hread, hsymbol⟩ := Option.map_eq_some_iff.mp h
  exact ⟨value, by rw [hread, (Prod.mk.inj hsymbol).2]⟩

theorem length_lt_of_next? {text rest : List Char} {lexeme : Lexeme}
    (h : next? text = some (lexeme, rest))
    : rest.length < text.length := by
  unfold next? at h
  split at h
  case h_13 =>
    obtain ⟨_, hcount⟩ := eq_some_of_spelled h
    exact Nat.lt_succ_of_lt (length_lt_of_count? hcount)
  case h_14 =>
    obtain ⟨_, hclass⟩ := eq_some_of_spelled h
    exact Nat.lt_succ_of_lt (length_lt_of_class? hclass)
  case h_15 =>
    obtain ⟨_, hescaped⟩ := eq_some_of_spelled h
    exact Nat.lt_succ_of_lt (length_lt_of_escaped? hescaped)
  all_goals simp only [reduceCtorEq, Option.some.injEq, Prod.mk.injEq] at h
  all_goals
    simp only [← h.2, List.length_cons]
    omega

/-- The symbols of a text, if all of it is made of symbols. -/
def scan (text : List Char) : Option (List Lexeme) :=
  match text with
  | [] => some []
  | c :: cs =>
      match _h : next? (c :: cs) with
      | none => none
      | some (lexeme, rest) => (scan rest).map (lexeme :: ·)
termination_by text.length
decreasing_by exact length_lt_of_next? _h

theorem scan_of_next? {text rest : List Char} {lexeme : Lexeme}
    (h : next? text = some (lexeme, rest))
    : scan text = (scan rest).map (lexeme :: ·) := by
  cases text with
  | nil => exact absurd h nofun
  | cons c cs =>
      rw [scan]
      split
      · next hnone => exact absurd (h.symm.trans hnone) nofun
      · next hsome =>
          obtain ⟨rfl, rfl⟩ := Prod.mk.inj (Option.some.inj (h.symm.trans hsome))
          rfl

end Lexeme

end Wildcard
