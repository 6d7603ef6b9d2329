/-! Characters that a regular expression spells with a backslash. -/

namespace Wildcard.Regex

def hexDigit? (c : Char) : Option Nat :=
  if c.isDigit then some (c.toNat - '0'.toNat)
  else if 'a' ≤ c ∧ c ≤ 'f' then some (c.toNat - 'a'.toNat + 10)
  else if 'A' ≤ c ∧ c ≤ 'F' then some (c.toNat - 'A'.toNat + 10)
  else none

/-- The character whose code point has these hexadecimal digits. -/
def hexChar? (digits : List Char) : Option Char := do
  if digits.isEmpty then failure
  let values ← digits.mapM hexDigit?
  let code := values.foldl (16 * · + ·) 0
  if code.isValidChar then some (Char.ofNat code) else none

/-- Whether a backslash before this character makes it stand for itself. -/
def isEscapable (c : Char) : Bool :=
  c.toNat < 128 && !c.isAlphanum && c != '<' && c != '>'

/-- The character spelled after a backslash, and the text after it. -/
def escaped? : List Char → Option (Char × List Char)
  | 'x' :: '{' :: text => do
      let c ← hexChar? (text.takeWhile (· != '}'))
      match text.dropWhile (· != '}') with
      | [] => none
      | _ :: rest => some (c, rest)
  | 'x' :: a :: b :: rest => do return (← hexChar? [a, b], rest)
  | c :: rest => if isEscapable c then some (c, rest) else none
  | [] => none

theorem length_dropWhile_le {α : Type} (p : α → Bool) (xs : List α)
    : (xs.dropWhile p).length ≤ xs.length :=
  (List.dropWhile_suffix p).length_le

theorem length_lt_of_escaped? {text rest : List Char} {c : Char}
    (h : escaped? text = some (c, rest))
    : rest.length < text.length := by
  unfold escaped? at h
  split at h
  · next text =>
      have hlen := length_dropWhile_le (· != '}') text
      cases hc : hexChar? (text.takeWhile (· != '}')) with
      | none => simp [hc] at h
      | some d =>
          cases hd : text.dropWhile (· != '}') with
          | nil => simp [hc, hd] at h
          | cons e tail =>
              simp only [hd, List.length_cons] at hlen
              simp only [hc, hd, Option.bind_eq_bind, Option.bind_some, Option.some.injEq,
                Prod.mk.injEq] at h
              simp only [← h.2, List.length_cons]
              omega
  · next a b tail _ =>
      cases hc : hexChar? [a, b] with
      | none => simp [hc] at h
      | some d =>
          simp only [hc, Option.bind_eq_bind, Option.bind_some, Option.pure_def, Option.some.injEq,
            Prod.mk.injEq] at h
          simp only [← h.2, List.length_cons]
          omega
  · split at h
    · simp only [Option.some.injEq, Prod.mk.injEq] at h
      simp only [← h.2, List.length_cons]
      omega
    · exact absurd h nofun
  · exact absurd h nofun

end Wildcard.Regex
