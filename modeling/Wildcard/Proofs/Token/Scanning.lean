import Wildcard.Proofs.Token.Symbols

/-! Going through the tokens of a text.
A stream shows the token at its place, and the moves made so far say which place that is. The text
need not be split beforehand: a scanner that finds one token at a time shows the same.
-/

namespace Wildcard

-----------------------------------------------------------------------------------------
-- Places in a stream
-----------------------------------------------------------------------------------------

/-- What can be asked of a stream. -/
inductive Move where
  | current
  | advance
  | next

/-- Whether a move goes on to the place after the present one. -/
def Move.isForward : Move → Bool
  | .current => false
  | .advance | .next => true

namespace TokenStream

def move (s : TokenStream) : Move → TokenStream
  | .current => s
  | .advance => s.advance
  | .next => s.next.2

/-- The place that is reached by some moves. -/
def after (s : TokenStream) (moves : List Move) : TokenStream := moves.foldl move s

/-- Each move forward leaves one token behind, by induction on the moves. -/
@[simp]
theorem unread_after (s : TokenStream) (moves : List Move)
    : (s.after moves).unread = s.unread.drop (moves.countP Move.isForward) := by
  induction moves generalizing s with
  | nil => rfl
  | cons move moves ih =>
      change ((s.move move).after moves).unread = _
      rw [ih, List.countP_cons]
      cases move with
      | current => rfl
      | advance | next => exact List.drop_tail

@[simp]
theorem current_after (s : TokenStream) (moves : List Move)
    : (s.after moves).current = s.unread[moves.countP Move.isForward]? := by
  simp [current]

/-- Advancing over the first tokens leaves the others. -/
theorem after_replicate_advance {s : TokenStream} {taken rest : List Token}
    (h : s.unread = taken ++ rest)
    : s.after (List.replicate taken.length .advance) = ⟨rest⟩ := by
  have forward : Move.isForward .advance = true := rfl
  have left : (s.after (List.replicate taken.length .advance)).unread = rest := by
    rw [unread_after, List.countP_replicate, if_pos forward, h, List.drop_left]
  exact congrArg TokenStream.mk left

end TokenStream

-----------------------------------------------------------------------------------------
-- One token at a time
-----------------------------------------------------------------------------------------

namespace Alphabet

variable {a : Alphabet} {text rest : List Char} {token : Token}

/-- The ordinary characters in front of the next operator, without their escapes, and the text from
that operator on. -/
def run (a : Alphabet) : List Char → List Char × List Char
  | [] => ([], [])
  | c :: cs =>
      if a.isEscape c then
        match cs with
        | [] => ([c], [])
        | d :: ds =>
            let (chars, rest) := run a ds
            (d :: chars, rest)
      else if a.operators.contains c then ([], c :: cs)
      else
        let (chars, rest) := run a cs
        (c :: chars, rest)

/-- The token at the front of a text and the text after it. The first character tells whether the
token is an operator. -/
def scan? (a : Alphabet) : List Char → Option (Token × List Char)
  | [] => none
  | c :: cs =>
      if a.isEscape c = false ∧ a.operators.contains c then some (.operator c, cs)
      else some (.text (a.run (c :: cs)).1, (a.run (c :: cs)).2)

/-- The run at the front of a text comes in front of the tokens after it, by induction on the
run. -/
theorem tokenize_eq_foldr_run (a : Alphabet) (text : List Char)
    : a.tokenize text = (a.run text).1.foldr Token.prepend (a.tokenize (a.run text).2) := by
  fun_induction run a text with
  | case1 => rfl
  | case2 c escaping => exact tokenize_singleton_of_isEscape escaping
  | case3 c escaping d ds chars rest hrun ih =>
      rw [hrun] at ih
      rw [tokenize_cons_cons_of_isEscape a escaping, ih, List.foldr_cons]
  | case4 => rfl
  | case5 c cs plain ordinary chars rest hrun ih =>
      rw [hrun] at ih
      rw [tokenize_cons_of_ordinary ordinary (Bool.eq_false_iff.mpr plain), ih, List.foldr_cons]

/-- A run ends in front of an operator or at the end of the text, by induction on the run. -/
theorem not_isText_head?_run (a : Alphabet) (text : List Char)
    : ∀ next ∈ (a.tokenize (a.run text).2).head?, ¬ next.isText := by
  fun_induction run a text with
  | case1 | case2 => exact nofun
  | case3 c escaping d ds chars rest hrun ih =>
      rw [hrun] at ih
      exact ih
  | case4 c cs plain hop =>
      rw [tokenize_cons_of_operator hop (Bool.eq_false_iff.mpr plain)]
      simp [Token.isText]
  | case5 c cs plain ordinary chars rest hrun ih =>
      rw [hrun] at ih
      exact ih

/-- A run that does not begin with an operator is not empty. -/
theorem run_ne_nil {c : Char} (h : ¬ (a.isEscape c = false ∧ a.operators.contains c))
    (cs : List Char)
    : (a.run (c :: cs)).1 ≠ [] := by
  rw [run.eq_def]
  dsimp only
  split
  · split <;> exact List.cons_ne_nil _ _
  · next plain =>
      split
      · next hop => exact absurd ⟨Bool.eq_false_iff.mpr plain, hop⟩ h
      · exact List.cons_ne_nil _ _

/-- What is found at the front of a text is its first token, and the others are those of the text
after it. -/
theorem tokenize_of_scan? (h : a.scan? text = some (token, rest))
    : a.tokenize text = token :: a.tokenize rest := by
  cases text with
  | nil => exact absurd h nofun
  | cons c cs =>
      rw [scan?] at h
      split at h
      · next hop =>
          cases h
          exact tokenize_cons_of_operator hop.2 hop.1 _
      · next ordinary =>
          cases h
          rw [tokenize_eq_foldr_run]
          exact Token.foldr_prepend_eq_cons_text (run_ne_nil ordinary cs)
            (not_isText_head?_run a (c :: cs))

/-- Only at the end of a text no token is found. -/
theorem eq_nil_of_scan?_eq_none (h : a.scan? text = none)
    : text = [] := by
  cases text with
  | nil => rfl
  | cons c cs =>
      rw [scan?] at h
      split at h <;> cases h

end Alphabet

/-- A text that is split as far as the token in view, and the characters behind that token. No token
is in view only at the end. -/
structure Scanner where
  alphabet : Alphabet
  current : Option Token
  rest : List Char
  ended : current = none → rest = []

namespace Scanner

/-- The first token of a text is in view. -/
def ofText (a : Alphabet) (text : List Char) : Scanner :=
  match a.scan? text with
  | none => ⟨a, none, [], fun _ => rfl⟩
  | some (token, rest) => ⟨a, some token, rest, nofun⟩

/-- Finds the token that comes next. -/
def advance (s : Scanner) : Scanner := ofText s.alphabet s.rest

/-- Takes the token in view, if there is one, and finds the token that comes next. -/
def next (s : Scanner) : Option Token × Scanner :=
  match s.current with
  | none => (none, s)
  | some token => (some token, s.advance)

def move (s : Scanner) : Move → Scanner
  | .current => s
  | .advance => s.advance
  | .next => s.next.2

/-- The scanner after some moves. -/
def after (s : Scanner) (moves : List Move) : Scanner := moves.foldl move s

/-- The tokens that a scanner has yet to show, the one in view among them. -/
def stream (s : Scanner) : TokenStream := ⟨s.current.toList ++ s.alphabet.tokenize s.rest⟩

@[simp]
theorem stream_ofText (a : Alphabet) (text : List Char)
    : (ofText a text).stream = .ofText a text := by
  rw [ofText]
  split
  · next hscan =>
      rw [Alphabet.eq_nil_of_scan?_eq_none hscan]
      rfl
  · next hscan =>
      rw [TokenStream.ofText, Alphabet.tokenize_of_scan? hscan]
      rfl

@[simp]
theorem current_stream (s : Scanner)
    : s.stream.current = s.current := by
  obtain ⟨a, current, rest, ended⟩ := s
  cases current with
  | none =>
      cases ended rfl
      rfl
  | some token => rfl

@[simp]
theorem stream_advance (s : Scanner)
    : s.advance.stream = s.stream.advance := by
  obtain ⟨a, current, rest, ended⟩ := s
  rw [advance, stream_ofText]
  cases current with
  | none =>
      cases ended rfl
      rfl
  | some token => rfl

@[simp]
theorem next_fst (s : Scanner)
    : s.next.1 = s.current := by
  rw [next]
  split
  all_goals next hcurrent => exact hcurrent.symm

@[simp]
theorem stream_next (s : Scanner)
    : s.next.2.stream = s.stream.next.2 := by
  rw [next]
  split
  · next hcurrent =>
      -- at the end there is nothing to move past
      have atEnd : s.stream.unread = [] := by
        rw [stream, hcurrent, s.ended hcurrent]
        rfl
      rw [TokenStream.next, TokenStream.advance, atEnd, List.tail_nil, ← atEnd]
  · exact stream_advance s

@[simp]
theorem stream_move (s : Scanner) (move : Move)
    : (s.move move).stream = s.stream.move move := by
  cases move <;> simp [Scanner.move, TokenStream.move]

/-- A scanner stays with the stream of its tokens, whatever moves are made. -/
@[simp]
theorem stream_after (s : Scanner) (moves : List Move)
    : (s.after moves).stream = s.stream.after moves :=
  (List.foldl_hom Scanner.stream fun s move => (stream_move s move).symm).symm

theorem current_after (a : Alphabet) (text : List Char) (moves : List Move)
    : ((ofText a text).after moves).current
      = (a.tokenize text)[moves.countP Move.isForward]? := by
  rw [← current_stream]
  simp [TokenStream.ofText]

end Scanner

/-- The tokens of a text are the only ones in which no run is empty or follows another and which are
made of what the characters of the text are taken for. So their characters are those of the text
without its escapes. A stream shows the token whose place is the number of moves forward, and none
from the end on, and so does a scanner that finds one token at a time. -/
theorem tokens_shown_in_runs (a : Alphabet) (text : List Char)
    : (∀ tokens, tokens = (TokenStream.ofText a text).unread
          ↔ Token.InRuns tokens ∧ tokens.flatMap Token.symbols = a.symbols text)
      ∧ (a.tokenize text).flatMap Token.chars = withoutEscapes a.escape text
      ∧ (∀ operators, (Alphabet.tokenize ⟨none, operators⟩ text).flatMap Token.chars = text)
      ∧ ∀ moves,
          let place := moves.countP Move.isForward
          let shown := (a.tokenize text)[place]?
          let stream := (TokenStream.ofText a text).after moves
          let scanner := (Scanner.ofText a text).after moves
          stream.current = shown ∧ stream.next.1 = shown
            ∧ scanner.current = shown ∧ scanner.next.1 = shown
            ∧ (shown = none ↔ (a.tokenize text).length ≤ place) := by
  refine ⟨fun tokens => Alphabet.eq_tokenize_iff, a.flatMap_chars_tokenize text, ?_, ?_⟩
  · intro operators
    rw [Alphabet.flatMap_chars_tokenize, withoutEscapes_none]
  · intro moves
    have inView := Scanner.current_after a text moves
    have atPlace := TokenStream.current_after (.ofText a text) moves
    exact ⟨atPlace, atPlace, inView, (Scanner.next_fst _).trans inView, List.getElem?_eq_none_iff⟩

/-- A star that is escaped, an escape in front of it that is escaped as well, and an escape at the
end are all ordinary. -/
example
    : Alphabet.tokenize ⟨some '!', .ofList ['*', '!']⟩ ['!', '!', '!', '*', '*', 'a', '!']
      = [.text ['!', '*'], .operator '*', .text ['a', '!']] := by
  decide

end Wildcard
