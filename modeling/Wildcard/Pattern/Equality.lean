import Wildcard.CharSet
import Wildcard.Pattern

/-! Equality of patterns.
The candidates of a choice form a set, so their order and repetition do not count; all else is
compared as it stands.
-/

namespace Wildcard.Pattern

mutual

def beq : Pattern → Pattern → Bool
  | .empty, .empty => true
  | .anyChar, .anyChar => true
  | .literal s, .literal t => s == t
  | .oneOf cs, .oneOf ds => CharSet.ofList cs == CharSet.ofList ds
  | .group ps, .group qs => beqItems ps qs
  | .atLeast p m, .atLeast q n => m == n && beq p q
  | _, _ => false

def beqItems : List Pattern → List Pattern → Bool
  | [], [] => true
  | p :: ps, q :: qs => beq p q && beqItems ps qs
  | _, _ => false

end

instance : BEq Pattern := ⟨beq⟩

end Wildcard.Pattern
