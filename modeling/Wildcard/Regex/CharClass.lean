/-! Sets of characters as regular expressions spell them. -/

namespace Wildcard

inductive CharClass where
  | any
  | single (c : Char)
  | range (first last : Char)
  /-- The members between brackets, or all characters but those. -/
  | bracket (negated : Bool) (members : List CharClass)

namespace CharClass

mutual

def contains : CharClass → Char → Bool
  | .any, _ => true
  | .single d, c => c == d
  | .range first last, c => first ≤ c && c ≤ last
  | .bracket negated members, c => anyContains members c != negated

def anyContains : List CharClass → Char → Bool
  | [], _ => false
  | member :: members, c => contains member c || anyContains members c

end

end CharClass

end Wildcard
