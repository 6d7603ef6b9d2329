import Wildcard.Proofs.Render.Bytes
import Wildcard.Proofs.Render.Spelled

/-! Patterns written into texts of limited length.
Before copies are written it is checked that they are not too long for a text on their own. What
stands in front of them and the operator behind them is not counted, so a text can still become too
long when they are added to it. Then writing neither gives a text nor reports a fault.

The length of a text is all that is limited here. Whether there is memory for it, and for the room
that a growing text keeps ahead, is left aside.
-/

namespace Wildcard

-----------------------------------------------------------------------------------------
-- Demands
-----------------------------------------------------------------------------------------

namespace Spelling

/-- What must hold for writing to go on. -/
inductive Demand where
  /-- So many copies of so many bytes are not too long for a text on their own. -/
  | copies (r : Repetition)
  /-- So many bytes are not too long for a text. -/
  | room (bytes : Nat)

namespace Demand

def Met : Demand → Prop
  | .copies r => r.Fits
  | .room bytes => bytes ≤ Text.maxBytes

instance : DecidablePred Met
  | .copies r => inferInstanceAs (Decidable r.Fits)
  | .room bytes => inferInstanceAs (Decidable (bytes ≤ Text.maxBytes))

/-- The repetition that copies are asked for. -/
def copies? : Demand → Option Repetition
  | .copies r => some r
  | .room _ => none

/-- How writing ends if a demand is not met. Only copies are refused. -/
def halt : Demand → Halt
  | .copies r => .fault r.fault
  | .room _ => .noRoom

/-- Where demands are met, the copies that they ask for fit. -/
theorem fits_of_met {demands : List Demand} (met : ∀ demand ∈ demands, demand.Met)
    : ∀ r ∈ demands.filterMap copies?, r.Fits := by
  intro r member
  obtain ⟨demand, inside, hcopies⟩ := List.mem_filterMap.mp member
  cases demand with
  | copies _ =>
      cases hcopies
      exact met _ inside
  | room _ => cases hcopies

end Demand

/-- A result, once some demands are checked. -/
def checked {α : Type} (demands : List Demand) (result : α) : Except Halt α := do
  checkEach Demand.Met Demand.halt demands
  return result

section

variable {α β : Type} {before after demands : List Demand}

theorem checked_room (bytes : Nat) (result : α)
    : checked [.room bytes] result
      = if bytes ≤ Text.maxBytes then .ok result else .error .noRoom := by
  by_cases fits : bytes ≤ Text.maxBytes <;>
    simp [checked, checkEach, Demand.Met, Demand.halt, fits, bind, Except.bind, pure, Except.pure]

theorem checked_copies (r : Repetition) (demands : List Demand) (result : α)
    : checked (.copies r :: demands) result
      = if r.Fits then checked demands result else .error (.fault r.fault) := by
  by_cases fits : r.Fits <;>
    simp [checked, checkEach, Demand.Met, Demand.halt, fits, bind, Except.bind]

theorem checked_map (demands : List Demand) (result : α) (f : α → β)
    : (checked demands result).map f = checked demands (f result) := by
  rw [checked, checked]
  cases checkEach Demand.Met Demand.halt demands <;> rfl

/-- Demands are checked one after the other. What is done once the first are met need not be known
to do anything if they are not. -/
theorem checked_bind {next : α → Except Halt β} {result : α} {final : β}
    (h : (∀ demand ∈ before, demand.Met) → next result = checked after final)
    : (checked before result).bind next = checked (before ++ after) final := by
  rw [checked, checked, checkEach_append]
  cases hcheck : checkEach Demand.Met Demand.halt before with
  | ok _ => exact h (checkEach_eq_ok_iff.mp hcheck)
  | error halt => rfl

/-- What is done once demands are met may depend on them. -/
theorem checked_bind_of_ok {next : α → Except Halt β} {result : α} {final : β}
    (h : (∀ demand ∈ demands, demand.Met) → next result = .ok final)
    : (checked demands result).bind next = checked demands final := by
  have nothing_left : (∀ demand ∈ demands, demand.Met) → next result = checked [] final := h
  rw [checked_bind nothing_left, List.append_nil]

end

end Spelling

-----------------------------------------------------------------------------------------
-- Adding to a text
-----------------------------------------------------------------------------------------

namespace ScopedText.InOrder

variable {s : ScopedText}

theorem added (h : s.InOrder) (text : List Char)
    : (s.added text).InOrder :=
  h.write text

theorem opened (h : s.InOrder) (count : Option Nat)
    : (s.opened count).InOrder :=
  h.openScope count

end ScopedText.InOrder

namespace ByteText

open Spelling (checked checked_room checked_copies checked_bind_of_ok)

variable {s : ScopedText}

@[simp]
theorem ending_openScope_encode (s : ScopedText) (count : Option Nat)
    : ending (openScope count) s.encode = .ok (s.opened count).encode := by
  rw [ScopedText.opened, ScopedText.encode_openScope]
  rfl

/-- A text is added if there is room for it. -/
theorem ending_appendWithin (h : s.InOrder) (text : List Char)
    : ending (appendWithin (Text.utf8 text)) s.encode
      = checked [.room (Text.byteLength s.text + Text.byteLength text)] (s.added text).encode := by
  have bytes : s.encode.bytes.length + (Text.utf8 text).length
      = Text.byteLength s.text + Text.byteLength text := by
    simp [ScopedText.encode]
  rw [checked_room, ScopedText.added, ScopedText.encode_write h, appendWithin,
    ending_bind_of_ok (EStateM.run_get _), bytes]
  split <;> rfl

/-- Of two texts it is the second that needs the room. -/
theorem ending_appendWithin_twice (h : s.InOrder) (text more : List Char)
    : ending (appendWithin (Text.utf8 text) >>= fun _ => appendWithin (Text.utf8 more)) s.encode
      = checked [.room (Text.byteLength s.text + Text.byteLength (text ++ more))]
          (s.added (text ++ more)).encode := by
  have sum : Text.byteLength (s.added text).text + Text.byteLength more
      = Text.byteLength s.text + Text.byteLength (text ++ more) := by
    simp [ScopedText.added, Nat.add_assoc]
  rw [ending_bind, ending_appendWithin h, checked_room]
  split
  · change ending (appendWithin (Text.utf8 more)) (s.added text).encode = _
    rw [ending_appendWithin (h.added text), sum, ScopedText.added_added]
  · next tooLong =>
      rw [checked_room, if_neg]
      · rfl
      · simp only [Text.byteLength_append]
        omega

/-- The text of a scope is cut off, and what was there before is left. -/
theorem run_cutScope_added (h : s.InOrder) (count : Option Nat) (text : List Char)
    : cutScope.run ((s.opened count).added text).encode = .ok (Text.utf8 text, count) s.encode := by
  simpa [ScopedText.added, ScopedText.opened]
    using run_cutScope_encode ((h.opened count).added text)

/-- A text that there was room for has room when it is written back. -/
theorem ending_closeScope (h : s.InOrder) (count : Option Nat) {text : List Char}
    (room : Text.byteLength s.text + Text.byteLength text ≤ Text.maxBytes)
    : ending (closeScope appendWithin) ((s.opened count).added text).encode
      = .ok (s.added text).encode := by
  rw [closeScope, ending_bind_of_ok (run_cutScope_added h count text)]
  dsimp only
  rw [ending_appendWithin h, checked_room, if_pos room]

/-- What is written in a scope that is closed again is written as it would be without the scope. -/
theorem ending_scope (h : s.InOrder) {inside : EStateM Halt ByteText Unit}
    {demands : List Spelling.Demand} {text : List Char}
    (written : ending inside (s.opened none).encode
      = checked demands ((s.opened none).added text).encode)
    (room : (∀ demand ∈ demands, demand.Met) →
      Text.byteLength s.text + Text.byteLength text ≤ Text.maxBytes)
    : ending (do openScope none; inside; closeScope appendWithin) s.encode
      = checked demands (s.added text).encode := by
  rw [ending_bind, ending_openScope_encode]
  change ending (inside >>= _) (s.opened none).encode = _
  rw [ending_bind, written]
  exact checked_bind_of_ok fun met => ending_closeScope h none (room met)

/-- What was written since a scope was opened is repeated, if the copies fit and if there is room for
them and the last character. -/
theorem ending_closeRepeated (h : s.InOrder) (count : Nat) (text : List Char) (last : Char)
    : let copies := (List.replicate count text).flatten ++ [last]
      ending (closeRepeated appendWithin last) ((s.opened (some count)).added text).encode
        = checked
            [.copies ⟨Text.byteLength text, count⟩,
              .room (Text.byteLength s.text + Text.byteLength copies)]
            (s.added copies).encode := by
  intro copies
  have fits_iff : Text.fits (Text.byteLength text) count
      ↔ (Spelling.Repetition.mk (Text.byteLength text) count).Fits := decide_eq_true_iff
  rw [closeRepeated, ending_bind_of_ok (run_cutScope_added h (some count) text)]
  dsimp only
  rw [checked_copies, Text.length_utf8]
  simp only [← fits_iff]
  split
  · next fits =>
      rw [← Text.length_utf8] at fits
      rw [ending_bind_of_ok (run_repeated fits _), ← Text.utf8_repeated, Text.repeated_eq_flatten]
      exact ending_appendWithin_twice h _ [last]
  · rfl

end ByteText

-----------------------------------------------------------------------------------------
-- Demands of a pattern
-----------------------------------------------------------------------------------------

namespace Spelling

mutual

/-- The demands of a pattern in the order in which they come up, behind a text of so many bytes. -/
def demands (sp : Spelling) (escape : Char) (extra : List Char) (before : Nat)
    : Pattern → List Demand
  | .empty => []
  | .group items => demandsAll sp escape extra before items
  | .atLeast body count =>
      demands sp escape extra before body
        ++ [.copies ⟨Text.byteLength (spelled sp escape extra body), count⟩,
          .room (before + Text.byteLength (spelled sp escape extra (.atLeast body count)))]
  | leaf => [.room (before + Text.byteLength (spelled sp escape extra leaf))]

def demandsAll (sp : Spelling) (escape : Char) (extra : List Char) (before : Nat)
    : List Pattern → List Demand
  | [] => []
  | item :: items =>
      demands sp escape extra before item
        ++ demandsAll sp escape extra
          (before + Text.byteLength (spelled sp escape extra item)) items

end

variable {sp : Spelling} {escape : Char} {extra : List Char} {s : ScopedText}

mutual

/-- If the demands are met, the text fits behind what was there before, by induction on the
pattern. -/
theorem room_of_demands {before : Nat} (p : Pattern) (room : before ≤ Text.maxBytes)
    (met : ∀ demand ∈ sp.demands escape extra before p, demand.Met)
    : before + Text.byteLength (sp.spelled escape extra p) ≤ Text.maxBytes := by
  cases p with
  | empty => exact room
  | anyChar | literal | oneOf => exact met _ List.mem_cons_self
  | group items => exact room_of_demandsAll items room met
  | atLeast body count =>
      rw [demands, List.forall_mem_append] at met
      exact met.2 _ (List.mem_cons_of_mem _ List.mem_cons_self)

theorem room_of_demandsAll {before : Nat} (items : List Pattern) (room : before ≤ Text.maxBytes)
    (met : ∀ demand ∈ sp.demandsAll escape extra before items, demand.Met)
    : before + Text.byteLength (sp.spelledAll escape extra items) ≤ Text.maxBytes := by
  cases items with
  | nil => exact room
  | cons item items =>
      rw [demandsAll, List.forall_mem_append] at met
      rw [spelledAll, Text.byteLength_append, ← Nat.add_assoc]
      exact room_of_demandsAll items (room_of_demands item room met.1) met.2

end

@[simp]
theorem byteLength_spelled_atLeast (body : Pattern) (count : Nat)
    : Text.byteLength (sp.spelled escape extra (.atLeast body count))
      = Text.byteLength (sp.spelled escape extra body) * count
        + Text.byteLength [sp.anyString] := by
  rw [spelled, Text.byteLength_append, ← Text.repeated_eq_flatten, Text.byteLength_repeated]

mutual

/-- The copies that are asked for are those of the repetitions, in the same order, by induction on
the pattern. -/
theorem filterMap_copies_demands (before : Nat) (p : Pattern)
    : (sp.demands escape extra before p).filterMap Demand.copies?
      = sp.repetitions escape extra p := by
  cases p with
  | empty | anyChar | literal | oneOf => rfl
  | group items => exact filterMap_copies_demandsAll before items
  | atLeast body count =>
      rw [demands, List.filterMap_append, filterMap_copies_demands before body, repetitions]
      rfl

theorem filterMap_copies_demandsAll (before : Nat) (items : List Pattern)
    : (sp.demandsAll escape extra before items).filterMap Demand.copies?
      = sp.repetitionsAll escape extra items := by
  cases items with
  | nil => rfl
  | cons item items =>
      rw [demandsAll, List.filterMap_append, filterMap_copies_demands before item,
        filterMap_copies_demandsAll _ items, repetitionsAll]

end

-----------------------------------------------------------------------------------------
-- Visiting
-----------------------------------------------------------------------------------------

/-- Writes patterns in bytes, as long as the text does not become too long. -/
def limitedRenderer (sp : Spelling) (escape : Char) (extra : List Char)
    : Renderer ByteText Halt (List UInt8) :=
  sp.rendererBy ByteText.appendWithin escape extra

@[simp]
theorem handle_limitedRenderer (event : Event)
    : (sp.limitedRenderer escape extra).handle event
      = (sp.edits (Escaping.ofOperators sp.operators (some escape) extra) event).forM
          (ByteText.edit ByteText.appendWithin) :=
  rfl

/-- The two events of a choice write it, with or without brackets. -/
theorem ending_oneOf_within (candidates : List Char) (h : s.InOrder)
    : ending (Pattern.visit (sp.limitedRenderer escape extra) (.oneOf candidates)) s.encode
      = checked (sp.demands escape extra (Text.byteLength s.text) (.oneOf candidates))
          (s.added (sp.spelled escape extra (.oneOf candidates))).encode := by
  cases hbrackets : sp.brackets with
  | none =>
      have visited : Pattern.visit (sp.limitedRenderer escape extra) (.oneOf candidates)
          = ByteText.appendWithin (Text.utf8 [sp.anyChar]) := by
        simp [Pattern.visit, edits, hbrackets, ByteText.edit]
      simp only [visited, demands, spelled, hbrackets]
      exact ByteText.ending_appendWithin h _
  | some brackets =>
      obtain ⟨first, last⟩ := brackets
      have visited : Pattern.visit (sp.limitedRenderer escape extra) (.oneOf candidates)
          = (do
            ByteText.openScope none
            (do
              ByteText.appendWithin (Text.utf8 (first :: sp.escaped escape extra candidates))
              ByteText.appendWithin (Text.utf8 [last]))
            ByteText.closeScope ByteText.appendWithin) := by
        simp [Pattern.visit, edits, hbrackets, ByteText.edit,
          apply_eq_escaped]
      simp only [visited, demands, spelled, hbrackets]
      exact ByteText.ending_scope h (ByteText.ending_appendWithin_twice (h.opened none) _ _)
        fun met => met _ List.mem_cons_self

mutual

/-- Visiting a pattern writes its text once its demands are checked, by induction on the pattern. -/
theorem ending_visit_within (p : Pattern) {s : ScopedText} (h : s.InOrder)
    (room : Text.byteLength s.text ≤ Text.maxBytes)
    : ending (p.visit (sp.limitedRenderer escape extra)) s.encode
      = checked (sp.demands escape extra (Text.byteLength s.text) p)
          (s.added (sp.spelled escape extra p)).encode := by
  cases p with
  | empty =>
      rw [demands, spelled, ScopedText.added_nil]
      rfl
  | anyChar =>
      simpa [Pattern.visit, edits, ByteText.edit, demands, spelled]
        using ByteText.ending_appendWithin h [sp.anyChar]
  | literal text =>
      simpa [Pattern.visit, edits, ByteText.edit, demands, spelled,
          apply_eq_escaped]
        using ByteText.ending_appendWithin h (sp.escaped escape extra text)
  | oneOf candidates => exact ending_oneOf_within candidates h
  | group items =>
      have visited : Pattern.visit (sp.limitedRenderer escape extra) (.group items) = (do
          ByteText.openScope none
          Pattern.visitAll (sp.limitedRenderer escape extra) items
          ByteText.closeScope ByteText.appendWithin) := by
        simp [Pattern.visit, edits, ByteText.edit]
      rw [visited, demands, spelled]
      exact ByteText.ending_scope h (ending_visitAll_within items (h.opened none) room)
        (room_of_demandsAll items room)
  | atLeast body count =>
      have visited : Pattern.visit (sp.limitedRenderer escape extra) (.atLeast body count) = (do
          ByteText.openScope (some count)
          Pattern.visit (sp.limitedRenderer escape extra) body
          ByteText.closeRepeated ByteText.appendWithin sp.anyString) := by
        simp [Pattern.visit, edits, ByteText.edit]
      rw [visited, demands, spelled, ending_bind, ByteText.ending_openScope_encode]
      change ending _ (s.opened (some count)).encode = _
      rw [ending_bind, ending_visit_within body (h.opened (some count)) room]
      exact checked_bind fun _ =>
        ByteText.ending_closeRepeated h count (sp.spelled escape extra body) sp.anyString

theorem ending_visitAll_within (items : List Pattern) {s : ScopedText} (h : s.InOrder)
    (room : Text.byteLength s.text ≤ Text.maxBytes)
    : ending (Pattern.visitAll (sp.limitedRenderer escape extra) items) s.encode
      = checked (sp.demandsAll escape extra (Text.byteLength s.text) items)
          (s.added (sp.spelledAll escape extra items)).encode := by
  cases items with
  | nil =>
      rw [demandsAll, spelledAll, ScopedText.added_nil]
      rfl
  | cons item items =>
      rw [Pattern.visitAll, demandsAll, spelledAll, ending_bind, ending_visit_within item h room]
      refine checked_bind fun met => ?_
      have length : Text.byteLength (s.added (sp.spelled escape extra item)).text
          = Text.byteLength s.text + Text.byteLength (sp.spelled escape extra item) :=
        Text.byteLength_append ..
      have room := room_of_demands item room met
      rw [← length] at room
      rw [ending_visitAll_within items (h.added _) room, length, ScopedText.added_added]

end

/-- Rendering gives the bytes of the text once the demands of the pattern are checked. -/
theorem render_eq_checked (sp : Spelling) (escape : Char) (extra : List Char) (p : Pattern)
    : p.render (sp.limitedRenderer escape extra)
      = checked (sp.demands escape extra 0 p) (Text.utf8 (sp.spelled escape extra p)) := by
  have visited : ending (p.visit (sp.limitedRenderer escape extra)) ScopedText.empty.encode = _ :=
    ending_visit_within p ScopedText.inOrder_empty (Nat.zero_le _)
  rw [render_eq_map_ending (fun _ => rfl) p]
  change (ending _ ScopedText.empty.encode).map ByteText.bytes = _
  rw [visited, checked_map]
  rfl

/-- A pattern is written in bytes if all of its demands are met. Otherwise the first that is not
met ends the writing. What is written is no longer than a text can be, and it is the text that is
written without that limit. A fault is the fault without that limit. -/
structure WritesWithin (sp : Spelling) (escape : Char) (extra : List Char) (p : Pattern)
    : Prop where
  ok : ∀ bytes, p.render (sp.limitedRenderer escape extra) = .ok bytes
    ↔ (∀ demand ∈ sp.demands escape extra 0 p, demand.Met)
      ∧ bytes = Text.utf8 (sp.spelled escape extra p)
  error : ∀ halt, p.render (sp.limitedRenderer escape extra) = .error halt
    ↔ ∃ before demand after, sp.demands escape extra 0 p = before ++ demand :: after
      ∧ (∀ earlier ∈ before, earlier.Met) ∧ ¬ demand.Met ∧ halt = demand.halt
  fits : ∀ bytes, p.render (sp.limitedRenderer escape extra) = .ok bytes →
    bytes.length ≤ Text.maxBytes
    ∧ ∃ text, p.render (sp.renderer escape extra) = .ok text ∧ bytes = Text.utf8 text
  fault : ∀ fault, p.render (sp.limitedRenderer escape extra) = .error (.fault fault) →
    p.render (sp.renderer escape extra) = .error fault

theorem writesWithin (sp : Spelling) (escape : Char) (extra : List Char) (p : Pattern)
    : sp.WritesWithin escape extra p := by
  have ok (bytes : List UInt8) : p.render (sp.limitedRenderer escape extra) = .ok bytes
      ↔ (∀ demand ∈ sp.demands escape extra 0 p, demand.Met)
        ∧ bytes = Text.utf8 (sp.spelled escape extra p) := by
    rw [render_eq_checked]
    exact checkEach_return_eq_ok_iff
  have error (halt : Halt) : p.render (sp.limitedRenderer escape extra) = .error halt
      ↔ ∃ before demand after, sp.demands escape extra 0 p = before ++ demand :: after
        ∧ (∀ earlier ∈ before, earlier.Met) ∧ ¬ demand.Met ∧ halt = demand.halt := by
    rw [render_eq_checked]
    exact checkEach_return_eq_error_iff
  refine ⟨ok, error, ?_, ?_⟩
  · intro bytes hbytes
    obtain ⟨met, rfl⟩ := (ok bytes).mp hbytes
    have room := room_of_demands p (Nat.zero_le _) met
    have fit : ∀ r ∈ sp.repetitions escape extra p, r.Fits := by
      rw [← filterMap_copies_demands 0 p]
      exact Demand.fits_of_met met
    refine ⟨?_, _, ((sp.rendersSpelled escape extra p).ok _).mpr ⟨fit, rfl⟩, rfl⟩
    rwa [Text.length_utf8, ← Nat.zero_add (Text.byteLength _)]
  · intro fault failed
    obtain ⟨before, demand, after, hdemands, met, unmet, hhalt⟩ := (error _).mp failed
    cases demand with
    | room _ => cases hhalt
    | copies r =>
        cases hhalt
        refine ((sp.rendersSpelled escape extra p).error _).mpr
          ⟨_, r, after.filterMap Demand.copies?, ?_, Demand.fits_of_met met, unmet, rfl⟩
        rw [← filterMap_copies_demands 0 p, hdemands, List.filterMap_append]
        rfl

end Spelling

end Wildcard
