import Wildcard.Pattern

/-! The texts that a pattern matches. -/

namespace Wildcard.Pattern

/-- So many or more texts in a row, each of which satisfies `P`. -/
inductive InARow (P : List Char → Prop) : Nat → List Char → Prop where
  | done : InARow P 0 []
  | more {count : Nat} {first rest : List Char} (here : P first)
      (next : InARow P (count - 1) rest)
      : InARow P count (first ++ rest)

mutual

def Matches : Pattern → List Char → Prop
  | .empty, text => text = []
  | .anyChar, text => ∃ c, text = [c]
  | .literal chars, text => text = chars
  | .oneOf candidates, text => ∃ c ∈ candidates, text = [c]
  | .group items, text => MatchesAll items text
  | .atLeast body count, text => InARow (Matches body) count text

/-- The items match the parts of a text, in order. -/
def MatchesAll : List Pattern → List Char → Prop
  | [], text => text = []
  | item :: items, text =>
      ∃ first rest, text = first ++ rest ∧ Matches item first ∧ MatchesAll items rest

end

end Wildcard.Pattern
