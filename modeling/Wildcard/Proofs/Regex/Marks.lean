import Wildcard.Proofs.Regex.Repeats
import Wildcard.Regex.Marked

/-! Matching with marks is matching.
The marks of an expression stand for the texts that would complete it, and moving the marks over
a character takes that character off the front of these texts. After a whole text has been read,
the marks at the end therefore tell whether the text is accepted.
-/

namespace Wildcard.Marked

open Regex (Repeats)

-----------------------------------------------------------------------------------------
-- What an expression accepts, and what its marks still wait for
-----------------------------------------------------------------------------------------

/-- Whether a stretch of text is accepted, marks put aside. -/
def Accepts : Marked → Bool → Bool → List Char → Prop
  | .empty, _, _, text => text = []
  | .start, atStart, _, text => atStart ∧ text = []
  | .stop, _, atEnd, text => atEnd ∧ text = []
  | .one set _, _, _, text => ∃ c, set.contains c ∧ text = [c]
  | .cat first next, atStart, atEnd, text =>
      ∃ left right, text = left ++ right
        ∧ Accepts first atStart (atEnd && right.isEmpty) left
        ∧ Accepts next (atStart && left.isEmpty) atEnd right
  | .alt left right, atStart, atEnd, text =>
      Accepts left atStart atEnd text ∨ Accepts right atStart atEnd text
  | .loop optional body, atStart, atEnd, text =>
      Repeats (Accepts body) (if optional then 0 else 1) atStart atEnd text

/-- Whether a text, read from one of the marks on, brings the expression to its end. -/
def Completes : Marked → Bool → List Char → Prop
  | .empty, _, _ | .start, _, _ | .stop, _, _ => False
  | .one _ mark, _, text => mark ∧ text = []
  | .cat first next, atEnd, text =>
      (∃ left right, text = left ++ right
        ∧ Completes first (atEnd && right.isEmpty) left
        ∧ Accepts next false atEnd right)
      ∨ Completes next atEnd text
  | .alt left right, atEnd, text => Completes left atEnd text ∨ Completes right atEnd text
  | .loop _ body, atEnd, text =>
      ∃ left right, text = left ++ right
        ∧ Completes body (atEnd && right.isEmpty) left
        ∧ Repeats (Accepts body) 0 false atEnd right

/-- No character is marked. -/
def unmarked : Marked → Bool
  | .empty | .start | .stop => true
  | .one _ mark => !mark
  | .cat first next => unmarked first && unmarked next
  | .alt left right => unmarked left && unmarked right
  | .loop _ body => unmarked body

/-- Without marks there is nothing to complete, by induction on the expression. -/
theorem not_completes_of_unmarked {m : Marked} (fresh : m.unmarked) (atEnd : Bool) (text : List Char)
    : ¬ m.Completes atEnd text := by
  induction m generalizing atEnd text with
  | empty | start | stop => exact id
  | one set mark =>
      intro done
      simp [unmarked, done.1] at fresh
  | cat first next ihFirst ihNext =>
      simp only [unmarked, Bool.and_eq_true] at fresh
      intro h
      rcases h with ⟨_, _, _, done, -⟩ | done
      · exact ihFirst fresh.1 _ _ done
      · exact ihNext fresh.2 _ _ done
  | alt left right ihLeft ihRight =>
      simp only [unmarked, Bool.and_eq_true] at fresh
      intro h
      rcases h with done | done
      · exact ihLeft fresh.1 _ _ done
      · exact ihRight fresh.2 _ _ done
  | loop optional body ih =>
      intro h
      rcases h with ⟨_, _, _, done, -⟩
      exact ih fresh _ _ done

/-- The split of an empty text has two empty parts. -/
private theorem exists_nil_eq_append {P : List Char → List Char → Prop}
    : (∃ left right, [] = left ++ right ∧ P left right) ↔ P [] [] := by
  refine ⟨?_, ?_⟩
  · intro h
    rcases h with ⟨left, right, hnil, h⟩
    obtain ⟨rfl, rfl⟩ := List.append_eq_nil_iff.mp hnil.symm
    exact h
  · intro h
    exact ⟨[], [], rfl, h⟩

/-- A text with a first character is split before that character or after it. -/
private theorem exists_cons_eq_append {c : Char} {text : List Char}
    {P : List Char → List Char → Prop}
    : (∃ left right, c :: text = left ++ right ∧ P left right)
      ↔ P [] (c :: text) ∨ ∃ left right, text = left ++ right ∧ P (c :: left) right := by
  refine ⟨?_, ?_⟩
  · intro h
    rcases h with ⟨left, right, hcons, h⟩
    rcases List.cons_eq_append_iff.mp hcons with ⟨rfl, rfl⟩ | ⟨left, rfl, rfl⟩
    · exact .inl h
    · exact .inr ⟨left, right, rfl, h⟩
  · intro h
    rcases h with h | ⟨left, right, rfl, h⟩
    · exact ⟨[], c :: text, rfl, h⟩
    · exact ⟨c :: left, right, rfl, h⟩

/-- The test for the empty stretch is exact, by induction on the expression. -/
theorem acceptsEmpty_iff (m : Marked) (atStart atEnd : Bool)
    : m.acceptsEmpty atStart atEnd ↔ m.Accepts atStart atEnd [] := by
  induction m generalizing atStart atEnd with
  | empty => simp [acceptsEmpty, Accepts]
  | start | stop => simp [acceptsEmpty, Accepts]
  | one set mark => simp [acceptsEmpty, Accepts]
  | cat first next ihFirst ihNext =>
      simp only [acceptsEmpty, Accepts, exists_nil_eq_append, ihFirst, ihNext, Bool.and_eq_true,
        List.isEmpty_nil, Bool.and_true]
  | alt left right ihLeft ihRight => simp [acceptsEmpty, Accepts, ihLeft, ihRight]
  | loop optional body ih =>
      cases optional <;> simp [acceptsEmpty, Accepts, Repeats.nil_iff, ih]

/-- The marks are at the end exactly if nothing more is needed, by induction on the expression. -/
theorem finished_iff (m : Marked) (atEnd : Bool)
    : m.finished atEnd ↔ m.Completes atEnd [] := by
  induction m generalizing atEnd with
  | empty | start | stop => simp [finished, Completes]
  | one set mark => simp [finished, Completes]
  | cat first next ihFirst ihNext =>
      simp only [finished, Completes, exists_nil_eq_append, ihFirst, ihNext, acceptsEmpty_iff,
        Bool.or_eq_true, Bool.and_eq_true, List.isEmpty_nil, Bool.and_true]
  | alt left right ihLeft ihRight => simp [finished, Completes, ihLeft, ihRight]
  | loop optional body ih =>
      simp only [finished, Completes, exists_nil_eq_append, ih, Repeats.nil_iff, true_or, and_true,
        List.isEmpty_nil, Bool.and_true]

-----------------------------------------------------------------------------------------
-- Reading one character, and reading a text
-----------------------------------------------------------------------------------------

/-- Moving the marks leaves the expression itself as it is. -/
theorem accepts_read (m : Marked) (atStart entering : Bool) (c : Char)
    : (m.read atStart c entering).Accepts = m.Accepts := by
  induction m generalizing entering with
  | empty | start | stop => rfl
  | one set mark => rfl
  | cat first next ihFirst ihNext =>
      funext atStart atEnd text
      simp only [read, Accepts, ihFirst, ihNext]
  | alt left right ihLeft ihRight =>
      funext atStart atEnd text
      simp only [read, Accepts, ihLeft, ihRight]
  | loop optional body ih =>
      funext atStart atEnd text
      simp only [read, Accepts, ih]

/-- Moving the marks over a character takes it off the front of what they waited for; entering
adds what the expression accepts from this character on. The flag for the start may only be set
before anything is marked. By induction on the expression. -/
theorem completes_read (m : Marked) (atStart entering : Bool) (c : Char)
    (fresh : atStart → m.unmarked) (atEnd : Bool) (text : List Char)
    : (m.read atStart c entering).Completes atEnd text
      ↔ m.Completes atEnd (c :: text) ∨ entering ∧ m.Accepts atStart atEnd (c :: text) := by
  induction m generalizing entering atEnd text with
  | empty => simp [read, Completes, Accepts]
  | start | stop => simp [read, Completes, Accepts]
  | one set mark =>
      simp only [read, Completes, Accepts, Bool.and_eq_true, reduceCtorEq, and_false, false_or,
        List.cons.injEq]
      refine ⟨?_, ?_⟩
      · intro h
        rcases h with ⟨⟨enter, member⟩, rfl⟩
        exact ⟨enter, c, member, rfl, rfl⟩
      · intro h
        rcases h with ⟨enter, d, member, rfl, rfl⟩
        exact ⟨⟨enter, member⟩, rfl⟩
  | cat first next ihFirst ihNext =>
      have freshFirst : atStart → first.unmarked := by
        intro start
        have both := fresh start
        simp only [unmarked, Bool.and_eq_true] at both
        exact both.1
      have freshNext : atStart → next.unmarked := by
        intro start
        have both := fresh start
        simp only [unmarked, Bool.and_eq_true] at both
        exact both.2
      -- marks in the first part exclude the start, so the second part begins inside the text
      have inside : first.Completes false [] →
          (next.Accepts atStart atEnd (c :: text) ↔ next.Accepts false atEnd (c :: text)) := by
        intro done
        cases atStart with
        | false => exact Iff.rfl
        | true => exact absurd done (not_completes_of_unmarked (freshFirst rfl) _ _)
      simp only [read, Completes, Accepts, ihFirst _ freshFirst, ihNext _ freshNext, accepts_read,
        exists_cons_eq_append, List.isEmpty_cons, List.isEmpty_nil, Bool.and_false, Bool.and_true,
        Bool.or_eq_true, Bool.and_eq_true, acceptsEmpty_iff, finished_iff]
      grind
  | alt left right ihLeft ihRight =>
      simp only [unmarked, Bool.and_eq_true] at fresh
      simp only [read, Completes, Accepts, ihLeft _ (fun start => (fresh start).1),
        ihRight _ (fun start => (fresh start).2)]
      grind
  | loop optional body ih =>
      have inside : body.Completes false [] → atStart = false := by
        intro done
        cases atStart with
        | false => rfl
        | true =>
            have freshBody : body.unmarked := fresh rfl
            exact absurd done (not_completes_of_unmarked freshBody _ _)
      have atMost : (if optional then 0 else 1) ≤ 1 := by split <;> omega
      simp only [read, Completes, Accepts, ih _ fresh, accepts_read, exists_cons_eq_append,
        Repeats.cons_iff atMost, Repeats.cons_iff (Nat.zero_le 1), List.isEmpty_cons,
        Bool.and_false, Bool.or_eq_true, finished_iff]
      grind

/-- The marks after a text has been read, by induction on the text. -/
theorem completes_foldl_read (m : Marked) (text : List Char) (atEnd : Bool)
    : (text.foldl (fun m c => m.read false c false) m).Completes atEnd [] ↔ m.Completes atEnd text := by
  induction text generalizing m with
  | nil => exact Iff.rfl
  | cons c text ih =>
      rw [List.foldl_cons, ih, completes_read m false false c nofun]
      simp

/-- Matching with marks decides what an expression without marks accepts. -/
theorem accepts_iff {m : Marked} (fresh : m.unmarked) (text : List Char)
    : m.accepts text ↔ m.Accepts true true text := by
  cases text with
  | nil => exact acceptsEmpty_iff m true true
  | cons c text =>
      rw [accepts, finished_iff, completes_foldl_read, completes_read m true true c (fun _ => fresh)]
      simp [not_completes_of_unmarked fresh]

end Wildcard.Marked
