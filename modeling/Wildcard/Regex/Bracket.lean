import Wildcard.Regex.CharClass
import Wildcard.Regex.Escape

/-! Reading a class in brackets.
A class holds characters, ranges and further classes. A caret right after the opening bracket
negates it, a hyphen or closing bracket at the front stands for itself, and the operators on
sets of characters are not part of the language.
-/

namespace Wildcard.Regex

/-- A class whose closing bracket is still to come, with the last member first. -/
structure OpenClass where
  negated : Bool
  members : List CharClass

namespace OpenClass

def add (cls : OpenClass) (member : CharClass) : OpenClass :=
  { cls with members := member :: cls.members }

def close (cls : OpenClass) : CharClass := .bracket cls.negated cls.members.reverse

/-- The caret after an opening bracket, and the text after it. -/
def caret : List Char → Bool × List Char
  | '^' :: rest => (true, rest)
  | text => (false, text)

/-- The members that stand for themselves because of their place at the front. -/
def leading : List Char → List CharClass × List Char
  | ']' :: rest => ([.single ']'], rest)
  | text => ((text.takeWhile (· == '-')).map .single, text.dropWhile (· == '-'))

/-- A class right after its opening bracket, and the text after what belongs to the opening. -/
def begin (text : List Char) : OpenClass × List Char :=
  let (negated, text) := caret text
  let (members, rest) := leading text
  (⟨negated, members⟩, rest)

theorem length_begin_le (text : List Char)
    : (begin text).2.length ≤ text.length := by
  have hc : (caret text).2.length ≤ text.length := by
    unfold caret
    split
    · exact Nat.le_succ _
    · exact Nat.le_refl _
  have hl : ∀ t : List Char, (leading t).2.length ≤ t.length := by
    intro t
    unfold leading
    split
    · exact Nat.le_succ _
    · exact length_dropWhile_le _ _
  exact Nat.le_trans (hl _) hc

end OpenClass

/-- A character of a class, and the text after it. -/
def classChar? : List Char → Option (Char × List Char)
  | [] => none
  | '\\' :: text => escaped? text
  | c :: rest => some (c, rest)

theorem length_lt_of_classChar? {text rest : List Char} {c : Char}
    (h : classChar? text = some (c, rest))
    : rest.length < text.length := by
  unfold classChar? at h
  split at h
  · exact absurd h nofun
  · exact Nat.lt_succ_of_lt (length_lt_of_escaped? h)
  · simp only [Option.some.injEq, Prod.mk.injEq] at h
    simp only [← h.2, List.length_cons, Nat.lt_succ_self]

/-- The text after a hyphen that stands between the two ends of a range. -/
def afterRangeHyphen? : List Char → Option (List Char)
  | '-' :: ']' :: _ | '-' :: '-' :: _ => none
  | '-' :: text => some text
  | _ => none

theorem length_lt_of_afterRangeHyphen? {text rest : List Char}
    (h : afterRangeHyphen? text = some rest)
    : rest.length < text.length := by
  unfold afterRangeHyphen? at h
  split at h
  · exact absurd h nofun
  · exact absurd h nofun
  · simp only [← Option.some.inj h, List.length_cons, Nat.lt_succ_self]
  · exact absurd h nofun

/-- A character or a range of a class, and the text after it. -/
def classMember? (text : List Char) : Option (CharClass × List Char) :=
  match classChar? text with
  | none => none
  | some (first, rest) =>
      match afterRangeHyphen? rest with
      | none => some (.single first, rest)
      | some text =>
          match classChar? text with
          | none => none
          | some (last, rest) => if first ≤ last then some (.range first last, rest) else none

theorem length_lt_of_classMember? {text rest : List Char} {member : CharClass}
    (h : classMember? text = some (member, rest))
    : rest.length < text.length := by
  unfold classMember? at h
  split at h
  · exact absurd h nofun
  · next hfirst =>
      have hlt := length_lt_of_classChar? hfirst
      split at h
      · simp only [Option.some.injEq, Prod.mk.injEq] at h
        simpa only [← h.2] using hlt
      · next hhyphen =>
          have hlt' := length_lt_of_afterRangeHyphen? hhyphen
          split at h
          · exact absurd h nofun
          · next hlast =>
              have hlt'' := length_lt_of_classChar? hlast
              split at h
              · simp only [Option.some.injEq, Prod.mk.injEq] at h
                simp only [← h.2]
                omega
              · exact absurd h nofun

/-- What stands next in a class. -/
inductive ClassItem where
  | close (rest : List Char)
  | nested (rest : List Char)
  | member (set : CharClass) (rest : List Char)

/-- The item at the front of the text inside a class, unless the text ends there or is not part
of the language. -/
def classItem? : List Char → Option ClassItem
  | ']' :: rest => some (.close rest)
  | '[' :: rest => some (.nested rest)
  | '&' :: '&' :: _ | '-' :: '-' :: _ | '~' :: '~' :: _ => none
  | text => do
      let (set, rest) ← classMember? text
      return .member set rest

def ClassItem.rest : ClassItem → List Char
  | .close rest | .nested rest | .member _ rest => rest

theorem length_lt_of_classItem? {text : List Char} {item : ClassItem}
    (h : classItem? text = some item)
    : item.rest.length < text.length := by
  unfold classItem? at h
  split at h
  · simp only [← Option.some.inj h, ClassItem.rest, List.length_cons, Nat.lt_succ_self]
  · simp only [← Option.some.inj h, ClassItem.rest, List.length_cons, Nat.lt_succ_self]
  · exact absurd h nofun
  · exact absurd h nofun
  · exact absurd h nofun
  · obtain ⟨⟨set, rest⟩, hmember, hitem⟩ := Option.bind_eq_some_iff.mp h
    rw [← Option.some.inj hitem]
    exact length_lt_of_classMember? hmember

/-- Reads on from inside a class to the end of the outermost one. The classes around the current
one are given with the innermost first. -/
def readClass (outer : List OpenClass) (inner : OpenClass) (text : List Char)
    : Option (CharClass × List Char) :=
  match _h : classItem? text with
  | none => none
  | some (.close rest) =>
      match outer with
      | [] => some (inner.close, rest)
      | around :: outer => readClass outer (around.add inner.close) rest
  | some (.nested rest) =>
      readClass (inner :: outer) (OpenClass.begin rest).1 (OpenClass.begin rest).2
  | some (.member set rest) => readClass outer (inner.add set) rest
termination_by text.length
decreasing_by
  · exact length_lt_of_classItem? _h
  · exact Nat.lt_of_le_of_lt (OpenClass.length_begin_le _) (length_lt_of_classItem? _h)
  · exact length_lt_of_classItem? _h

theorem length_lt_of_readClass {outer : List OpenClass} {inner : OpenClass} {text rest : List Char}
    {set : CharClass} (h : readClass outer inner text = some (set, rest))
    : rest.length < text.length := by
  fun_induction readClass outer inner text with
  | case1 => exact absurd h nofun
  | case2 text inner tail hitem =>
      have hlt := length_lt_of_classItem? hitem
      simp only [Option.some.injEq, Prod.mk.injEq] at h
      simpa only [ClassItem.rest, h.2] using hlt
  | case3 text inner tail hitem around outer ih =>
      exact Nat.lt_trans (ih h) (length_lt_of_classItem? hitem)
  | case4 outer inner text tail hitem ih =>
      exact Nat.lt_trans (ih h)
        (Nat.lt_of_le_of_lt (OpenClass.length_begin_le _) (length_lt_of_classItem? hitem))
  | case5 outer inner text set tail hitem ih =>
      exact Nat.lt_trans (ih h) (length_lt_of_classItem? hitem)

/-- The class whose opening bracket stands just before the text, and the text after the class. -/
def class? (text : List Char) : Option (CharClass × List Char) :=
  readClass [] (OpenClass.begin text).1 (OpenClass.begin text).2

theorem length_lt_of_class? {text rest : List Char} {set : CharClass}
    (h : class? text = some (set, rest))
    : rest.length < text.length :=
  Nat.lt_of_lt_of_le (length_lt_of_readClass h) (OpenClass.length_begin_le text)

end Wildcard.Regex
