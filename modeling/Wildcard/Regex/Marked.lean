import Wildcard.Regex

/-! Matching with marks.
The places in an expression that may have read the last character are marked. Reading one more
character moves the marks, so the work for a character is bounded by the expression, and nothing
is ever read twice.

Only so many copies of a repeated body are needed. If there are more of them than a text has
characters, one of them accepts the empty stretch, and it may do so once more or once less.
-/

namespace Wildcard

/-- An expression with its repetitions written out, whose characters may be marked. -/
inductive Marked where
  | empty
  | start
  | stop
  | one (set : CharClass) (mark : Bool)
  | cat (first next : Marked)
  | alt (left right : Marked)
  /-- The body again and again, and perhaps not at all. -/
  | loop (optional : Bool) (body : Marked)

namespace Marked

/-- So many copies of the body or more; the last copy is the one that may repeat. -/
def repeated (body : Marked) : Nat → Marked
  | 0 => .loop true body
  | 1 => .loop false body
  | count + 2 => .cat body (repeated body (count + 1))

/-- An expression before anything is read, with at most so many copies of a body. -/
def ofRegex (most : Nat) : Regex → Marked
  | .empty => .empty
  | .one set => .one set false
  | .start => .start
  | .stop => .stop
  | .cat first next => .cat (ofRegex most first) (ofRegex most next)
  | .alt left right => .alt (ofRegex most left) (ofRegex most right)
  | .group _ body => ofRegex most body
  | .atLeast count body => repeated (ofRegex most body) (min count most)

/-- Whether the expression accepts the empty stretch at a place, given whether that place is the
start of the text and whether it is the end. -/
def acceptsEmpty (atStart atEnd : Bool) : Marked → Bool
  | .empty => true
  | .start => atStart
  | .stop => atEnd
  | .one _ _ => false
  | .cat first next => acceptsEmpty atStart atEnd first && acceptsEmpty atStart atEnd next
  | .alt left right => acceptsEmpty atStart atEnd left || acceptsEmpty atStart atEnd right
  | .loop optional body => optional || acceptsEmpty atStart atEnd body

/-- Whether a marked character can be the last one of the expression. A mark is never at the
start of the text. -/
def finished (atEnd : Bool) : Marked → Bool
  | .empty | .start | .stop => false
  | .one _ mark => mark
  | .cat first next =>
      finished atEnd first && acceptsEmpty false atEnd next || finished atEnd next
  | .alt left right => finished atEnd left || finished atEnd right
  | .loop _ body => finished atEnd body

/-- Moves the marks over one character. With `entering`, the expression may also begin at this
character. -/
def read (atStart : Bool) (c : Char) (entering : Bool) : Marked → Marked
  | .empty => .empty
  | .start => .start
  | .stop => .stop
  | .one set _ => .one set (entering && set.contains c)
  | .cat first next =>
      .cat (read atStart c entering first)
        (read atStart c (entering && acceptsEmpty atStart false first || finished false first) next)
  | .alt left right => .alt (read atStart c entering left) (read atStart c entering right)
  | .loop optional body =>
      .loop optional (read atStart c (entering || finished false body) body)

/-- Whether the whole of a text is accepted by an expression without marks. -/
def accepts (m : Marked) : List Char → Bool
  | [] => m.acceptsEmpty true true
  | c :: cs => (cs.foldl (fun m c => m.read false c false) (m.read true c true)).finished true

/-- Any text. -/
def anything : Marked := .loop true (.one .any false)

end Marked

/-- Whether an expression is found in a text. -/
def Regex.isFoundIn (r : Regex) (text : List Char) : Bool :=
  (Marked.cat .anything (.cat (.ofRegex (text.length + 1) r) .anything)).accepts text

end Wildcard
