import Mathlib.Data.List.Forall2
import Wildcard.Proofs.Sql92.Tokens
import Wildcard.Proofs.Token.Scanning

/-! The grammar of SQL92 expressions.
Every token of an expression is an item. A foreign operator among the tokens is an error, and the
reader stops in front of the first one, so that it can be started again behind it.
-/

namespace Wildcard.Sql92

variable {token : Token} {tokens before behind last : List Token} {item : Pattern}
  {found : List Pattern} {op : Char} {ops : List Char}

-----------------------------------------------------------------------------------------
-- Tokens of the language and foreign operators
-----------------------------------------------------------------------------------------

/-- The item that a token of the language stands for. -/
inductive Spells : Token → Pattern → Prop where
  | text (chars : List Char) : Spells (.text chars) (.literal chars)
  | anyString : Spells (.operator '%') .anyString
  | anyChar : Spells (.operator '_') .anyChar

/-- No operator among the tokens is foreign. -/
def AllKnown (tokens : List Token) : Prop := ∀ op, Token.operator op ∈ tokens → op ∈ operators

theorem AllKnown.nil
    : AllKnown [] :=
  fun _ member => absurd member List.not_mem_nil

theorem AllKnown.cons_text (h : AllKnown tokens) (chars : List Char)
    : AllKnown (.text chars :: tokens) := by
  intro op member
  rcases List.mem_cons.mp member with same | member
  · exact absurd same nofun
  · exact h op member

theorem AllKnown.cons_operator (h : AllKnown tokens) (known : op ∈ operators)
    : AllKnown (.operator op :: tokens) := by
  intro other member
  rcases List.mem_cons.mp member with same | member
  · cases same
    exact known
  · exact h other member

theorem AllKnown.tail (h : AllKnown (token :: tokens))
    : AllKnown tokens :=
  fun op member => h op (List.mem_cons_of_mem token member)

theorem Spells.item?_eq (h : Spells token item)
    : item? token = some item := by
  cases h <;> rfl

theorem exists_spells_operator (known : op ∈ operators)
    : ∃ item, Spells (.operator op) item := by
  rcases List.mem_cons.mp known with rfl | known
  · exact ⟨_, .anyString⟩
  · rw [List.mem_singleton.mp known]
    exact ⟨_, .anyChar⟩

/-- Tokens of the language stand for one item each, by induction on the tokens. -/
theorem AllKnown.exists_spells (h : AllKnown tokens)
    : ∃ found, List.Forall₂ Spells tokens found := by
  induction tokens with
  | nil => exact ⟨[], .nil⟩
  | cons token tokens ih =>
      obtain ⟨found, others⟩ := ih h.tail
      cases token with
      | text chars => exact ⟨_, .cons (.text chars) others⟩
      | operator op =>
          obtain ⟨item, first⟩ := exists_spells_operator (h op List.mem_cons_self)
          exact ⟨_, .cons first others⟩

theorem item?_eq_none_of_foreign (foreign : op ∉ operators)
    : item? (.operator op) = none := by
  unfold item?
  split <;> simp_all [operators]

/-- Either no operator is foreign or one of them is the first, by induction on the tokens. -/
theorem allKnown_or_foreign (tokens : List Token)
    : AllKnown tokens
      ∨ ∃ before op behind, tokens = before ++ .operator op :: behind
          ∧ AllKnown before ∧ op ∉ operators := by
  induction tokens with
  | nil => exact .inl .nil
  | cons token tokens ih =>
      cases token with
      | text chars =>
          obtain known | ⟨before, op, behind, rfl, known, foreign⟩ := ih
          · exact .inl (known.cons_text chars)
          · exact .inr ⟨.text chars :: before, op, behind, rfl, known.cons_text chars, foreign⟩
      | operator op =>
          by_cases isKnown : op ∈ operators
          · obtain known | ⟨before, other, behind, rfl, known, foreign⟩ := ih
            · exact .inl (known.cons_operator isKnown)
            · exact .inr ⟨.operator op :: before, other, behind, rfl,
                known.cons_operator isKnown, foreign⟩
          · exact .inr ⟨[], op, tokens, rfl, .nil, isKnown⟩

-----------------------------------------------------------------------------------------
-- Reading up to the first foreign operator
-----------------------------------------------------------------------------------------

/-- Tokens of the language are read before what follows them, by induction on the tokens. -/
theorem items_append_of_spells (h : List.Forall₂ Spells before found) (tokens : List Token)
    : items (before ++ tokens) = (found ++ (items tokens).1, (items tokens).2) := by
  induction h with
  | nil => rfl
  | cons first _ ih =>
      rw [List.cons_append, items_of_item? first.item?_eq, ih, List.cons_append]

/-- Without foreign operators all is read, and every token is an item. -/
theorem read_of_spells (h : List.Forall₂ Spells tokens found)
    : read ⟨tokens⟩ = (.ok (.ofItems found), ⟨[]⟩) := by
  have whole := items_append_of_spells h []
  rw [List.append_nil, items, List.append_nil] at whole
  rw [read, whole]

/-- The first foreign operator is the error, and it is left unread with all that follows it. -/
theorem read_of_foreign (known : AllKnown before) (foreign : op ∉ operators)
    (behind : List Token)
    : read ⟨before ++ .operator op :: behind⟩
      = (.error (.unknownOperator op), ⟨.operator op :: behind⟩) := by
  obtain ⟨found, spelled⟩ := known.exists_spells
  have stopped : items (.operator op :: behind) = ([], .operator op :: behind) := by
    rw [items, item?_eq_none_of_foreign foreign]
  have whole := items_append_of_spells spelled (.operator op :: behind)
  rw [stopped] at whole
  rw [read, whole]

theorem read_eq_ok_iff {p : Pattern} {after : TokenStream}
    : read ⟨tokens⟩ = (.ok p, after)
      ↔ ∃ found, List.Forall₂ Spells tokens found ∧ p = .ofItems found ∧ after = ⟨[]⟩ := by
  refine ⟨?_, ?_⟩
  · intro outcome
    obtain known | ⟨before, op, behind, rfl, known, foreign⟩ := allKnown_or_foreign tokens
    · obtain ⟨found, spelled⟩ := known.exists_spells
      rw [read_of_spells spelled] at outcome
      cases outcome
      exact ⟨found, spelled, rfl, rfl⟩
    · rw [read_of_foreign known foreign] at outcome
      exact absurd outcome nofun
  · rintro ⟨found, spelled, rfl, rfl⟩
    exact read_of_spells spelled

theorem read_eq_error_iff {fault : Error} {after : TokenStream}
    : read ⟨tokens⟩ = (.error fault, after)
      ↔ ∃ before op behind, tokens = before ++ .operator op :: behind ∧ AllKnown before
          ∧ op ∉ operators ∧ fault = .unknownOperator op ∧ after = ⟨.operator op :: behind⟩ := by
  refine ⟨?_, ?_⟩
  · intro outcome
    obtain known | ⟨before, op, behind, rfl, known, foreign⟩ := allKnown_or_foreign tokens
    · obtain ⟨found, spelled⟩ := known.exists_spells
      rw [read_of_spells spelled] at outcome
      exact absurd outcome nofun
    · rw [read_of_foreign known foreign] at outcome
      cases outcome
      exact ⟨before, op, behind, rfl, known, foreign, rfl, rfl⟩
  · rintro ⟨before, op, behind, rfl, known, foreign, rfl, rfl⟩
    exact read_of_foreign known foreign behind

theorem exists_read_eq_ok_iff
    : (∃ p after, read ⟨tokens⟩ = (.ok p, after)) ↔ AllKnown tokens := by
  refine ⟨?_, ?_⟩
  · rintro ⟨p, after, outcome⟩
    obtain known | ⟨before, op, behind, rfl, known, foreign⟩ := allKnown_or_foreign tokens
    · exact known
    · rw [read_of_foreign known foreign] at outcome
      exact absurd outcome nofun
  · intro known
    obtain ⟨found, spelled⟩ := known.exists_spells
    exact ⟨_, _, read_of_spells spelled⟩

-----------------------------------------------------------------------------------------
-- Reading on behind foreign operators
-----------------------------------------------------------------------------------------

/-- Reads so many expressions from a stream, each from behind the token where the one before it
stopped. -/
def readEach : Nat → TokenStream → List (Except Error Pattern)
  | 0, _ => []
  | count + 1, stream => (read stream).1 :: readEach count (read stream).2.advance

/-- The foreign operators among some tokens in order, and the tokens behind the last of them. -/
inductive Parted : List Token → List Char → List Token → Prop where
  | last {tokens : List Token} (known : AllKnown tokens) : Parted tokens [] tokens
  | cons {before behind last : List Token} {op : Char} {ops : List Char}
    (known : AllKnown before) (foreign : op ∉ operators) (others : Parted behind ops last)
    : Parted (before ++ .operator op :: behind) (op :: ops) last

/-- Tokens have a first foreign operator after the other, by induction on their number. -/
theorem exists_parted (tokens : List Token)
    : ∃ ops last, Parted tokens ops last := by
  induction hlength : tokens.length using Nat.strongRecOn generalizing tokens with
  | ind length ih =>
      obtain known | ⟨before, op, behind, rfl, known, foreign⟩ := allKnown_or_foreign tokens
      · exact ⟨[], tokens, .last known⟩
      · have shorter : behind.length < length := by
          rw [← hlength, List.length_append, List.length_cons]
          omega
        obtain ⟨ops, last, others⟩ := ih _ shorter behind rfl
        exact ⟨op :: ops, last, .cons known foreign others⟩

/-- Every foreign operator is reported once and in order, and then what is behind the last of them
is an expression, by induction on the foreign operators. -/
theorem Parted.readEach_eq (h : Parted tokens ops last)
    : ∃ found, List.Forall₂ Spells last found
        ∧ readEach (ops.length + 1) ⟨tokens⟩
          = ops.map (fun op => .error (.unknownOperator op)) ++ [.ok (.ofItems found)] := by
  induction h with
  | last known =>
      obtain ⟨found, spelled⟩ := known.exists_spells
      exact ⟨found, spelled, by simp [readEach, read_of_spells spelled]⟩
  | @cons before behind last op ops known foreign others ih =>
      obtain ⟨found, spelled, readBehind⟩ := ih
      refine ⟨found, spelled, ?_⟩
      rw [List.length_cons, readEach, read_of_foreign known foreign, List.map_cons,
        List.cons_append, ← readBehind]
      rfl

/-- From any place of a text on, an expression is read exactly if no foreign operator is left. Then
every token is an item and nothing is left unread. Otherwise the first foreign operator is the error,
the stream is in front of it, and reading goes on with the tokens behind it. Reading again and again
reports every foreign operator once and ends with the expression behind the last of them. -/
theorem read_stops_at_foreign (a : Alphabet) (text : List Char) (moves : List Move)
    : let stream := (TokenStream.ofText a text).after moves
      let tokens := (a.tokenize text).drop (moves.countP Move.isForward)
      ((∃ p after, read stream = (.ok p, after)) ↔ AllKnown tokens)
        ∧ (∀ p after, read stream = (.ok p, after)
            ↔ ∃ found, List.Forall₂ Spells tokens found ∧ p = .ofItems found ∧ after = ⟨[]⟩)
        ∧ (∀ fault after, read stream = (.error fault, after)
            ↔ ∃ before op behind, tokens = before ++ .operator op :: behind ∧ AllKnown before
                ∧ op ∉ operators ∧ fault = .unknownOperator op
                ∧ after = stream.after (List.replicate before.length .advance)
                ∧ after.current = some (.operator op)
                ∧ after.advance = ⟨behind⟩)
        ∧ ∃ ops last found, Parted tokens ops last ∧ List.Forall₂ Spells last found
            ∧ readEach (ops.length + 1) stream
              = ops.map (fun op => .error (.unknownOperator op)) ++ [.ok (.ofItems found)] := by
  intro stream tokens
  have atPlace : stream = ⟨tokens⟩ := congrArg TokenStream.mk (TokenStream.unread_after _ moves)
  have passed {before behind : List Token} {op : Char}
      (split : tokens = before ++ .operator op :: behind)
      : stream.after (List.replicate before.length .advance) = ⟨.operator op :: behind⟩ :=
    TokenStream.after_replicate_advance (by rw [atPlace, split])
  refine ⟨?_, ?_, ?_, ?_⟩
  · rw [atPlace]
    exact exists_read_eq_ok_iff
  · intro p after
    rw [atPlace]
    exact read_eq_ok_iff
  · intro fault after
    refine Iff.trans (by rw [atPlace]) (read_eq_error_iff.trans ⟨?_, ?_⟩)
    · rintro ⟨before, op, behind, split, known, foreign, rfl, rfl⟩
      exact ⟨before, op, behind, split, known, foreign, rfl, (passed split).symm, rfl, rfl⟩
    · rintro ⟨before, op, behind, split, known, foreign, rfl, rfl, -, -⟩
      exact ⟨before, op, behind, split, known, foreign, rfl, passed split⟩
  · obtain ⟨ops, last, parted⟩ := exists_parted tokens
    obtain ⟨found, spelled, reported⟩ := parted.readEach_eq
    rw [atPlace]
    exact ⟨ops, last, found, parted, spelled, reported⟩

end Wildcard.Sql92
