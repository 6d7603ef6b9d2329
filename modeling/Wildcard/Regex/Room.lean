import Wildcard.Regex
import Wildcard.Regex.Utf8

/-! The room that an expression takes, in bytes, as a machine that reads a text byte by byte.
There are two machines for an expression, one for each direction of reading, and only the one
that reads forward notes what groups capture. In a machine the repetitions are written out. A
body that accepts nothing but the empty text is never written out more than once, since repeating
it changes nothing.
-/

namespace Wildcard

inductive Direction where
  | forward
  | backward
  deriving DecidableEq

namespace Room

def state : Nat := 32

/-- The room for a span of bytes, in a state that goes on after one of several spans. -/
def step : Nat := 8

/-- The room for a way on, in a state that goes on in several ways without reading. -/
def way : Nat := 4

/-- An expression without any parts still takes a state, unless it is one of several in a row. -/
def atLeastState (room : Nat) : Nat := max state room

end Room

namespace CharClass

open Room

/-- The room for the rows of bytes of a class. The states of the forward machine that go on alike
are one state. The backward machine has a state for each step, and the states that are the same
way from the front are one. -/
def roomForRows (rows : List (List Span)) (direction : Direction) : Nat :=
  let states := Utf8.states 4 rows
  match direction with
  | .forward =>
      let distinct := states.eraseDups
      (distinct.length + 1) * state + countSteps distinct * step
  | .backward => 2 * state + rows.length * way + countSteps states * state
where
  countSteps (states : List (List (List Span))) : Nat := (states.flatMap Utf8.branches).length

/-- A single character is read by a state for each of its bytes, and a class of ASCII characters
by one state and the state after it. -/
def room (direction : Direction) (set : CharClass) : Nat :=
  let spans := set.spans
  let rows := Utf8.rows spans
  if spans.length = 1 && spans.all (fun s => s.first = s.last) then rows.flatten.length * state
  else if spans.all (·.last < 0x80) then 2 * state + spans.length * step
  else roomForRows rows direction

end CharClass

namespace Regex

open Room

/-- Whether no character can be part of an accepted stretch. -/
def onlyEmpty : Regex → Bool
  | .empty | .start | .stop => true
  | .one _ => false
  | .cat first next => onlyEmpty first && onlyEmpty next
  | .alt left right => onlyEmpty left && onlyEmpty right
  | .group _ body => onlyEmpty body
  | .atLeast _ body => onlyEmpty body

/-- The least number of characters of an accepted stretch, anchors put aside. There is none if a
class without characters takes part. -/
def shortest? : Regex → Option Nat
  | .empty | .start | .stop => some 0
  | .one set => if set.spans.isEmpty then none else some 1
  | .cat first next => do return (← shortest? first) + (← shortest? next)
  | .alt left right => do return min (← shortest? left) (← shortest? right)
  | .group _ body => shortest? body
  | .atLeast count body => (shortest? body).map (count * ·)

/-- Whether every accepted stretch lies at the end of the text where a machine begins to read. -/
def isAnchored (direction : Direction) : Regex → Bool
  | .empty | .one _ => false
  | .start => direction = .forward
  | .stop => direction = .backward
  | .cat first next =>
      match direction with
      | .forward => isAnchored direction first || onlyEmpty first && isAnchored direction next
      | .backward => isAnchored direction next || onlyEmpty next && isAnchored direction first
  | .alt left right => isAnchored direction left && isAnchored direction right
  | .group _ body => isAnchored direction body
  | .atLeast count body => 0 < count && isAnchored direction body

/-- The room for a body that is repeated. After the last copy, the way goes back to it or on. With
no copy required there is a way around the body, and if the body accepts the empty text, the way
back is kept apart from it. -/
def repeatedRoom (count : Nat) (body : Regex) (once : Nat) : Nat :=
  if count = 0 then
    if body.onlyEmpty then atLeastState once + 2 * state + 2 * way
    else if body.shortest?.any (0 < ·) then once + state + 2 * way
    else once + 3 * state + 4 * way
  else if body.onlyEmpty then once
  else count * once + state + 2 * way

/-- The room for the parts of an expression; an empty expression has none. -/
def room (direction : Direction) : Regex → Nat
  | .empty => 0
  | .one set => set.room direction
  | .start | .stop => state
  | .cat first next => room direction first + room direction next
  | .alt left right =>
      atLeastState (room direction left) + atLeastState (room direction right)
        + 2 * state + 2 * way
  | .group captures body =>
      let inside := room direction body
      if captures then
        match direction with
        | .forward => atLeastState inside + 2 * state
        | .backward => atLeastState inside
      else inside
  | .atLeast count body => repeatedRoom count body (room direction body)

/-- The room for the whole machine. A machine for an expression that is not anchored begins with a
loop over the bytes before the accepted stretch, and the forward machine captures that stretch. -/
def machineRoom (direction : Direction) (r : Regex) : Nat :=
  let entry := if r.isAnchored direction then state else 3 * state + step + 2 * way
  let captured := match direction with
    | .forward => 2 * state
    | .backward => 0
  entry + captured + atLeastState (r.room direction) + state

end Regex

end Wildcard
