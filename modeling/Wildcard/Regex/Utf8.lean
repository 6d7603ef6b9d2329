import Wildcard.Regex.Span

/-! Characters as bytes in UTF-8.
A span of code points is cut into pieces whose characters have their bytes in a row of spans, each
byte on its own. A piece has one length of encoding, and it is a single block, or whole blocks of
code points with the same leading bytes.
-/

namespace Wildcard.Utf8

/-- The bytes of the character with a code point. -/
def bytes (code : Nat) : List Nat :=
  if code < 0x80 then [code]
  else if code < 0x800 then [0xc0 + code / 0x40, 0x80 + code % 0x40]
  else if code < 0x10000 then
    [0xe0 + code / 0x1000, 0x80 + code / 0x40 % 0x40, 0x80 + code % 0x40]
  else
    [0xf0 + code / 0x40000, 0x80 + code / 0x1000 % 0x40, 0x80 + code / 0x40 % 0x40,
      0x80 + code % 0x40]

/-- The code points of characters that take as many bytes. The surrogates, which are no
characters, lie between the two spans of three bytes. -/
def bands : List Span :=
  [⟨0x80, 0x7ff⟩, ⟨0x800, 0xd7ff⟩, ⟨0xe000, 0xffff⟩, ⟨0x10000, Span.maxCode⟩]

/-- How many code points share all bytes but the last one, the last two and the last three. -/
def blocks : List Nat := [0x40, 0x1000, 0x40000]

/-- A span, unless it is empty. -/
def nonempty (first last : Nat) : List Span := if first ≤ last then [⟨first, last⟩] else []

/-- Cuts off the parts of blocks at both ends of a span, the smallest blocks first. -/
def cutAtBlocks : List Nat → Span → List Span
  | [], s => [s]
  | block :: larger, s =>
      if s.first / block = s.last / block then [s]
      else
        let start := (s.first + block - 1) / block * block
        let stop := (s.last + 1) / block * block
        (if s.first < start then [⟨s.first, start - 1⟩] else [])
          ++ (if start < stop then cutAtBlocks larger ⟨start, stop - 1⟩ else [])
          ++ (if stop ≤ s.last then [⟨stop, s.last⟩] else [])

/-- The pieces of a span. -/
def pieces (s : Span) : List Span :=
  nonempty s.first (min s.last 0x7f)
    ++ bands.flatMap fun band =>
      (nonempty (max s.first band.first) (min s.last band.last)).flatMap (cutAtBlocks blocks)

/-- A span for each byte of the characters of a piece. -/
def byteSpans (s : Span) : List Span := List.zipWith Span.mk (bytes s.first) (bytes s.last)

/-- The rows of spans of bytes that encode some spans of code points. -/
def rows (spans : List Span) : List (List Span) := spans.flatMap fun s => (pieces s).map byteSpans

/-- What may follow each of the first spans of some rows; rows with the same first span stand
together. -/
def branches (rows : List (List Span)) : List (List (List Span)) :=
  (rows.splitBy fun r s => r.head? == s.head?).map fun group => group.map List.tail

/-- The states in which rows of at most so many spans are read, each with the rows that are still
to come. There is no state after the last span. -/
def states : Nat → List (List Span) → List (List (List Span))
  | 0, _ => []
  | length + 1, rows =>
      if rows = [[]] then [] else rows :: (branches rows).flatMap (states length)

end Wildcard.Utf8
