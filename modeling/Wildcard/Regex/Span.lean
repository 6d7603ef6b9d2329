import Wildcard.Regex.CharClass

/-! Sets of characters as spans of code points.
The spans of a set ascend and do not touch, so a set has one list of spans however it is spelled.
-/

namespace Wildcard

/-- The numbers from a first one to a last one. -/
structure Span where
  first : Nat
  last : Nat
  deriving DecidableEq

namespace Span

/-- The largest code point. -/
def maxCode : Nat := 0x10ffff

/-- Spans with one more, which is joined with those that it overlaps or touches. -/
def insert (s : Span) : List Span → List Span
  | [] => [s]
  | t :: spans =>
      if s.last + 1 < t.first then s :: t :: spans
      else if t.last + 1 < s.first then t :: insert s spans
      else insert ⟨min s.first t.first, max s.last t.last⟩ spans

/-- The code points, from a given one up, that are in none of the spans. -/
def gaps (next : Nat) : List Span → List Span
  | [] => if next ≤ maxCode then [⟨next, maxCode⟩] else []
  | s :: spans =>
      if next < s.first then ⟨next, s.first - 1⟩ :: gaps (s.last + 1) spans
      else gaps (s.last + 1) spans

end Span

namespace CharClass

mutual

def spans : CharClass → List Span
  | .any => [⟨0, Span.maxCode⟩]
  | .single c => [⟨c.toNat, c.toNat⟩]
  | .range first last => [⟨first.toNat, last.toNat⟩]
  | .bracket negated members => if negated then Span.gaps 0 (allSpans members) else allSpans members

def allSpans : List CharClass → List Span
  | [] => []
  | member :: members => (spans member).foldr Span.insert (allSpans members)

end

end CharClass

end Wildcard
