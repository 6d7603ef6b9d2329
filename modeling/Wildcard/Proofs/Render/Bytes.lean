import Wildcard.Proofs.Render.Scripts
import Wildcard.Proofs.Render.Written
import Wildcard.Proofs.Text.Boundary

/-! Scopes of a text that is kept in bytes.
In UTF-8 a scope is marked by the number of bytes in front of it. The text can be cut at a mark only
between two characters, and a fragment can be repeated only if the copies fit into a text. Whatever
events are heard, in whatever order, neither is ever attempted in vain: the marks stay in order and
between characters, and all that is done to the bytes is what is done to the characters.
-/

namespace Wildcard

-----------------------------------------------------------------------------------------
-- Actions on bytes
-----------------------------------------------------------------------------------------

/-- Why an action on bytes ends early: it fails, or it cannot be carried out at all. -/
inductive Halt where
  | fault (fault : Error)
  /-- Bytes were to be split inside a character. -/
  | splitInside (offset : Nat)
  /-- So many bytes were to be repeated so many times, which is too long for a text. -/
  | repeatTooLong (bytes count : Nat)
  /-- Bytes were to be added to a text that has no room for them. -/
  | noRoom

/-- Text in UTF-8 and the marks of its open scopes, with the innermost first. A mark is the number
of bytes in front of its scope. -/
structure ByteText where
  bytes : List UInt8
  marks : List Mark

namespace ByteText

def empty : ByteText := ⟨[], []⟩

def append (bytes : List UInt8) : EStateM Halt ByteText Unit :=
  modify fun b => { b with bytes := b.bytes ++ bytes }

/-- Adds bytes if the text does not become too long by them. -/
def appendWithin (bytes : List UInt8) : EStateM Halt ByteText Unit := do
  if (← get).bytes.length + bytes.length ≤ Text.maxBytes then append bytes else throw .noRoom

def openScope (count : Option Nat) : EStateM Halt ByteText Unit :=
  modify fun b => { b with marks := ⟨b.bytes.length, count⟩ :: b.marks }

/-- Takes away the bytes from a place on, which must be between two characters. -/
def splitOff (offset : Nat) : EStateM Halt ByteText (List UInt8) := do
  let b ← get
  if Text.isBoundary b.bytes offset then
    set { b with bytes := b.bytes.take offset }
    return b.bytes.drop offset
  else throw (.splitInside offset)

/-- Repeats bytes, of which the copies must fit into a text. -/
def repeated (bytes : List UInt8) (count : Nat) : EStateM Halt ByteText (List UInt8) := do
  if bytes.length * count ≤ Text.maxBytes then return (List.replicate count bytes).flatten
  else throw (.repeatTooLong bytes.length count)

/-- Takes away the innermost mark, then the bytes since it. -/
def cutScope : EStateM Halt ByteText (List UInt8 × Option Nat) := do
  let b ← get
  match b.marks with
  | [] => throw (.fault .unopenedScope)
  | mark :: marks =>
      set { b with marks := marks }
      return (← splitOff mark.offset, mark.count)

section

-- how bytes are added
variable (add : List UInt8 → EStateM Halt ByteText Unit)

def closeScope : EStateM Halt ByteText Unit := do
  let (fragment, _) ← cutScope
  add fragment

def closeRepeated (last : Char) : EStateM Halt ByteText Unit := do
  let (fragment, count) ← cutScope
  match count with
  | none => throw (.fault .missingCount)
  | some count =>
      if Text.fits fragment.length count then
        add (← repeated fragment count)
        add (Text.utf8 [last])
      else throw (.fault (.repetitionTooLong fragment.length count))

end

end ByteText

/-- What can be done to a text with scopes. -/
inductive Edit where
  | write (chars : List Char)
  | openScope (count : Option Nat)
  | closeScope
  | closeRepeated (last : Char)
  /-- A repetition without a count is refused. -/
  | refuse

def ScopedText.edit : Edit → EStateM Error ScopedText Unit
  | .write chars => write chars
  | .openScope count => openScope count
  | .closeScope => closeScope
  | .closeRepeated last => closeRepeated last
  | .refuse => throw .missingCount

def ByteText.edit (add : List UInt8 → EStateM Halt ByteText Unit)
    : Edit → EStateM Halt ByteText Unit
  | .write chars => add (Text.utf8 chars)
  | .openScope count => openScope count
  | .closeScope => closeScope add
  | .closeRepeated last => closeRepeated add last
  | .refuse => throw (.fault .missingCount)

namespace Spelling

/-- What is done at an event. -/
def edits (sp : Spelling) (e : Escaping) : Event → List Edit
  | .enter .empty _ _ => []
  | .enter .anyChar _ _ => [.write [sp.anyChar]]
  | .enter .literal _ chars => [.write (e.apply (chars.getD []))]
  | .enter .oneOf _ chars =>
      match sp.brackets with
      | none => [.write [sp.anyChar]]
      | some (first, _) => [.openScope none, .write (first :: e.apply (chars.getD []))]
  | .enter .group _ _ => [.openScope none]
  | .enter .atLeast none _ => [.refuse]
  | .enter .atLeast (some count) _ => [.openScope (some count)]
  | .leave .oneOf =>
      match sp.brackets with
      | none => []
      | some (_, last) => [.write [last], .closeScope]
  | .leave .group => [.closeScope]
  | .leave .atLeast => [.closeRepeated sp.anyString]
  | .leave _ => []

/-- Handling an event is doing its edits in order. -/
theorem handle_eq_forM (sp : Spelling) (e : Escaping) (event : Event)
    : sp.handle e event = (sp.edits e event).forM ScopedText.edit := by
  cases event with
  | enter kind count chars =>
      cases kind with
      | oneOf => cases hbrackets : sp.brackets <;> simp [handle, edits, hbrackets, ScopedText.edit]
      | atLeast =>
          cases count with
          | none => rfl
          | some count => simp [handle, edits, ScopedText.edit, requireCount]
      | _ => simp [handle, edits, ScopedText.edit]
  | leave kind =>
      cases kind with
      | oneOf => cases hbrackets : sp.brackets <;> simp [handle, edits, hbrackets, ScopedText.edit]
      | _ => simp [handle, edits, ScopedText.edit]

/-- Writes patterns in bytes that are added in a given way. -/
def rendererBy (sp : Spelling) (add : List UInt8 → EStateM Halt ByteText Unit) (escape : Char)
    (extra : List Char) : Renderer ByteText Halt (List UInt8) where
  initial := .empty
  handle event :=
    (sp.edits (Escaping.ofOperators sp.operators (some escape) extra) event).forM (ByteText.edit add)
  finish := do return (← get).bytes

/-- Writes patterns in bytes, however long the text becomes. -/
def byteRenderer (sp : Spelling) (escape : Char) (extra : List Char)
    : Renderer ByteText Halt (List UInt8) :=
  sp.rendererBy ByteText.append escape extra

end Spelling

-----------------------------------------------------------------------------------------
-- Characters and bytes hand in hand
-----------------------------------------------------------------------------------------

namespace ScopedText

/-- No mark is behind a mark of a scope further inside, or behind the text. -/
structure InOrder (s : ScopedText) : Prop where
  ordered : s.marks.Pairwise fun inner outer => outer.offset ≤ inner.offset
  inside : ∀ mark ∈ s.marks, mark.offset ≤ s.text.length

/-- The same text in bytes, with marks that count bytes. -/
def encode (s : ScopedText) : ByteText where
  bytes := Text.utf8 s.text
  marks := s.marks.map fun mark => ⟨(Text.utf8 (s.text.take mark.offset)).length, mark.count⟩

variable {s : ScopedText} {text : List Char} {mark : Mark} {marks : List Mark}

theorem inOrder_empty : empty.InOrder where
  ordered := .nil
  inside _ member := absurd member List.not_mem_nil

theorem InOrder.write (h : s.InOrder) (chars : List Char)
    : InOrder { s with text := s.text ++ chars } where
  ordered := h.ordered
  inside mark member := by
    rw [List.length_append]
    exact Nat.le_add_right_of_le (h.inside mark member)

theorem InOrder.openScope (h : s.InOrder) (count : Option Nat)
    : InOrder { s with marks := ⟨s.text.length, count⟩ :: s.marks } where
  ordered := List.pairwise_cons.mpr ⟨h.inside, h.ordered⟩
  inside := List.forall_mem_cons.mpr ⟨Nat.le_refl _, h.inside⟩

theorem InOrder.closeScope (h : InOrder ⟨text, mark :: marks⟩)
    : InOrder ⟨text, marks⟩ where
  ordered := (List.pairwise_cons.mp h.ordered).2
  inside := (List.forall_mem_cons.mp h.inside).2

/-- The marks that are left are not behind the place of the mark where the text is cut. -/
theorem InOrder.cutScope (h : InOrder ⟨text, mark :: marks⟩)
    : InOrder ⟨text.take mark.offset, marks⟩ where
  ordered := (List.pairwise_cons.mp h.ordered).2
  inside outer member := by
    rw [List.length_take_of_le ((List.forall_mem_cons.mp h.inside).1)]
    exact (List.pairwise_cons.mp h.ordered).1 outer member

/-- Marks keep their places in bytes when more is written. -/
theorem encode_write (h : s.InOrder) (chars : List Char)
    : encode { s with text := s.text ++ chars }
      = { s.encode with bytes := s.encode.bytes ++ Text.utf8 chars } := by
  simp only [encode, Text.utf8_append, ByteText.mk.injEq, true_and]
  refine List.map_congr_left fun mark member => ?_
  rw [List.take_append_of_le_length (h.inside mark member)]

/-- A new mark counts the bytes of the text so far. -/
theorem encode_openScope (s : ScopedText) (count : Option Nat)
    : encode { s with marks := ⟨s.text.length, count⟩ :: s.marks }
      = { s.encode with marks := ⟨s.encode.bytes.length, count⟩ :: s.encode.marks } := by
  simp only [encode, List.map_cons, List.take_length]

/-- Marks keep their places in bytes when the text is cut behind them. -/
theorem encode_cutScope (h : InOrder ⟨text, mark :: marks⟩)
    : encode ⟨text.take mark.offset, marks⟩
      = { encode ⟨text, marks⟩ with bytes := Text.utf8 (text.take mark.offset) } := by
  simp only [encode, ByteText.mk.injEq, true_and]
  refine List.map_congr_left fun outer member => ?_
  rw [List.take_take, Nat.min_eq_left ((List.pairwise_cons.mp h.ordered).1 outer member)]

end ScopedText

/-- The same outcome in bytes. -/
def inBytes {α : Type} (result : EStateM.Result Error ScopedText α)
    : EStateM.Result Halt ByteText α :=
  match result with
  | .ok a s => .ok a s.encode
  | .error fault s => .error (.fault fault) s.encode

namespace ByteText

variable {s : ScopedText} {text : List Char} {mark : Mark} {marks : List Mark}

theorem run_append_encode (h : s.InOrder) (chars : List Char)
    : (append (Text.utf8 chars)).run s.encode
      = .ok () (ScopedText.encode { s with text := s.text ++ chars }) := by
  rw [ScopedText.encode_write h]
  rfl

/-- Between two characters bytes can be split. -/
theorem run_splitOff {first bytes : List UInt8}
    (boundary : Text.isBoundary (first ++ bytes) first.length = true) (marks : List Mark)
    : (splitOff first.length).run ⟨first ++ bytes, marks⟩ = .ok bytes ⟨first, marks⟩ := by
  rw [splitOff, run_bind_of_ok (EStateM.run_get _), if_pos boundary, List.take_left,
    List.drop_left]
  rfl

/-- Bytes whose copies fit into a text can be repeated. -/
theorem run_repeated {bytes : List UInt8} {count : Nat} (fits : Text.fits bytes.length count)
    (b : ByteText)
    : (repeated bytes count).run b = .ok (List.replicate count bytes).flatten b := by
  rw [repeated, if_pos (of_decide_eq_true fits)]
  rfl

/-- Cutting a scope splits the text between two characters. -/
theorem run_cutScope_encode (h : ScopedText.InOrder ⟨text, mark :: marks⟩)
    : cutScope.run (ScopedText.encode ⟨text, mark :: marks⟩)
      = .ok (Text.utf8 (text.drop mark.offset), mark.count)
          (ScopedText.encode ⟨text.take mark.offset, marks⟩) := by
  have parts : Text.utf8 text
      = Text.utf8 (text.take mark.offset) ++ Text.utf8 (text.drop mark.offset) := by
    rw [← Text.utf8_append, List.take_append_drop]
  have boundary : Text.isBoundary (Text.utf8 text) (Text.utf8 (text.take mark.offset)).length :=
    Text.isBoundary_utf8_iff.mpr ⟨_, _, (List.take_append_drop ..).symm, rfl⟩
  rw [parts] at boundary
  rw [ScopedText.encode_cutScope h]
  change (splitOff _ >>= _).run ⟨Text.utf8 text, _⟩ = _
  rw [parts, run_bind_of_ok (run_splitOff boundary _)]
  rfl

theorem run_closeScope_encode (h : ScopedText.InOrder ⟨text, mark :: marks⟩)
    : (closeScope append).run (ScopedText.encode ⟨text, mark :: marks⟩)
      = .ok () (ScopedText.encode ⟨text, marks⟩) := by
  rw [closeScope, run_bind_of_ok (run_cutScope_encode h)]
  dsimp only
  rw [run_append_encode h.cutScope, List.take_append_drop]

theorem run_closeRepeated_encode (h : ScopedText.InOrder ⟨text, mark :: marks⟩) (last : Char)
    : (closeRepeated append last).run (ScopedText.encode ⟨text, mark :: marks⟩)
      = inBytes ((ScopedText.closeRepeated last).run ⟨text, mark :: marks⟩) := by
  rw [closeRepeated, run_bind_of_ok (run_cutScope_encode h), ScopedText.run_closeRepeated_cons]
  obtain ⟨offset, count⟩ := mark
  cases count with
  | none => rfl
  | some count =>
      dsimp only
      rw [Text.length_utf8]
      split
      · next fits =>
          have fitsInBytes := fits
          rw [← Text.length_utf8] at fitsInBytes
          rw [run_bind_of_ok (run_repeated fitsInBytes _), ← Text.utf8_repeated,
            run_bind_of_ok (run_append_encode h.cutScope _),
            run_append_encode (h.cutScope.write _), List.append_assoc]
          rfl
      · rfl

/-- An edit of bytes comes to the same as the edit of their characters. -/
theorem run_edit_encode (h : s.InOrder) (edit : Edit)
    : (ByteText.edit append edit).run s.encode = inBytes ((ScopedText.edit edit).run s) := by
  cases edit with
  | write chars => exact run_append_encode h chars
  | openScope count =>
      change EStateM.Result.ok () _ = EStateM.Result.ok () _
      rw [ScopedText.encode_openScope]
  | closeScope =>
      obtain ⟨text, marks⟩ := s
      cases marks with
      | nil => rfl
      | cons mark marks =>
          change (closeScope append).run _ = inBytes (ScopedText.closeScope.run _)
          rw [run_closeScope_encode h, ScopedText.run_closeScope_cons]
          rfl
  | closeRepeated last =>
      obtain ⟨text, marks⟩ := s
      cases marks with
      | nil => rfl
      | cons mark marks => exact run_closeRepeated_encode h last
  | refuse => rfl

end ByteText

/-- Every edit keeps the marks in order, also one that fails. -/
theorem ScopedText.InOrder.edit {s : ScopedText} (h : s.InOrder) (edit : Edit)
    : (leftBehind ((ScopedText.edit edit).run s)).InOrder := by
  cases edit with
  | write chars => exact h.write chars
  | openScope count => exact h.openScope count
  | closeScope =>
      obtain ⟨text, marks⟩ := s
      cases marks with
      | nil => exact h
      | cons mark marks =>
          change (leftBehind (ScopedText.closeScope.run _)).InOrder
          rw [run_closeScope_cons]
          exact h.closeScope
  | closeRepeated last =>
      obtain ⟨text, marks⟩ := s
      cases marks with
      | nil => exact h
      | cons mark marks =>
          change (leftBehind ((ScopedText.closeRepeated last).run _)).InOrder
          rw [run_closeRepeated_cons]
          cases mark.count with
          | none => exact h.cutScope
          | some count =>
              dsimp only
              split
              · exact h.cutScope.write _
              · exact h.cutScope
  | refuse => exact h

/-- Edits in a row come to the same in bytes as in characters and keep the marks in order, up to the
first that fails, by induction on them. -/
theorem run_forM_edit_encode {s : ScopedText} (h : s.InOrder) (edits : List Edit)
    : (edits.forM (ByteText.edit ByteText.append)).run s.encode
        = inBytes ((edits.forM ScopedText.edit).run s)
      ∧ (leftBehind ((edits.forM ScopedText.edit).run s)).InOrder := by
  induction edits generalizing s with
  | nil => exact ⟨rfl, h⟩
  | cons edit edits ih =>
      have sameHere := ByteText.run_edit_encode h edit
      have inOrder := h.edit edit
      rw [List.forM_eq_forM, List.forM_eq_forM, List.forM_cons, List.forM_cons]
      cases hedit : (ScopedText.edit edit).run s with
      | ok done t =>
          rw [hedit] at sameHere inOrder
          rw [run_bind_of_ok sameHere, run_bind_of_ok hedit]
          exact ih inOrder
      | error fault t =>
          rw [hedit] at sameHere inOrder
          rw [run_bind_of_error sameHere, run_bind_of_error hedit]
          exact ⟨rfl, inOrder⟩

-----------------------------------------------------------------------------------------
-- All scripts
-----------------------------------------------------------------------------------------

/-- From the outermost scope inwards the marks do not go back, and each of them is at a place of the
text between two characters. -/
structure ByteText.WellMarked (b : ByteText) : Prop where
  ascending : (b.marks.map Mark.offset).reverse.Pairwise (· ≤ ·)
  inside : ∀ mark ∈ b.marks, mark.offset ≤ b.bytes.length
  between : ∀ mark ∈ b.marks, Text.isBoundary b.bytes mark.offset = true

/-- Marks in order are in order in bytes. -/
theorem ScopedText.InOrder.wellMarked {s : ScopedText} (h : s.InOrder)
    : s.encode.WellMarked where
  ascending := by
    rw [List.pairwise_reverse, ScopedText.encode, List.map_map, List.pairwise_map]
    refine h.ordered.imp fun {inner outer} before => ?_
    obtain ⟨more, hmore⟩ := List.take_prefix_take_left before (l := s.text)
    simp only [Function.comp_apply]
    rw [← hmore, Text.utf8_append, List.length_append]
    exact Nat.le_add_right _ _
  inside := by
    refine List.forall_mem_map.mpr fun mark _ => ?_
    change _ ≤ (Text.utf8 s.text).length
    rw [← List.take_append_drop mark.offset s.text, Text.utf8_append, List.length_append,
      List.take_append_drop]
    exact Nat.le_add_right _ _
  between :=
    List.forall_mem_map.mpr fun mark _ =>
      Text.isBoundary_utf8_iff.mpr ⟨_, _, (List.take_append_drop mark.offset s.text).symm, rfl⟩

theorem leftBehind_inBytes {α : Type} (result : EStateM.Result Error ScopedText α)
    : leftBehind (inBytes result) = (leftBehind result).encode := by
  cases result <;> rfl

theorem faultOf_inBytes {α : Type} (result : EStateM.Result Error ScopedText α)
    : faultOf (inBytes result) = (faultOf result).map Halt.fault := by
  cases result <;> rfl

namespace Spelling

variable (sp : Spelling) (escape : Char) (extra : List Char)

/-- An event has the same outcome in bytes as in characters. -/
theorem run_byteRenderer_encode {s : ScopedText} (h : s.InOrder) (event : Event)
    : ((sp.byteRenderer escape extra).handle event).run s.encode
      = inBytes (((sp.renderer escape extra).handle event).run s) := by
  change _ = inBytes ((sp.handle _ event).run s)
  rw [handle_eq_forM]
  exact (run_forM_edit_encode h _).1

theorem inOrder_step {s : ScopedText} (h : s.InOrder) (event : Event)
    : ((sp.renderer escape extra).step s event).InOrder := by
  change (leftBehind ((sp.handle _ event).run s)).InOrder
  rw [handle_eq_forM]
  exact (run_forM_edit_encode h _).2

/-- Events in a row leave behind in bytes what they leave behind in characters and keep the marks in
order, also when some of them fail, by induction on the events. -/
theorem foldl_step_encode {s : ScopedText} (h : s.InOrder) (script : List Event)
    : script.foldl (sp.byteRenderer escape extra).step s.encode
        = (script.foldl (sp.renderer escape extra).step s).encode
      ∧ (script.foldl (sp.renderer escape extra).step s).InOrder := by
  induction script generalizing s with
  | nil => exact ⟨rfl, h⟩
  | cons event script ih =>
      have sameStep : (sp.byteRenderer escape extra).step s.encode event
          = ((sp.renderer escape extra).step s event).encode := by
        rw [Renderer.step, run_byteRenderer_encode sp escape extra h, leftBehind_inBytes]
        rfl
      rw [List.foldl_cons, List.foldl_cons, sameStep]
      exact ih (inOrder_step sp escape extra h event)

/-- Whatever events were heard, the bytes are those of the text, with their marks in order and
between characters. Every further event has the same outcome in bytes as in characters, so bytes are
never split inside a character, and never repeated to more than fits into a text. -/
structure KeepsMarks (sp : Spelling) (escape : Char) (extra : List Char) (script : List Event)
    : Prop where
  wellMarked : ((sp.byteRenderer escape extra).after script).WellMarked
  encode_after : (sp.byteRenderer escape extra).after script
    = ((sp.renderer escape extra).after script).encode
  run_handle : ∀ event,
    ((sp.byteRenderer escape extra).handle event).run ((sp.byteRenderer escape extra).after script)
      = inBytes (((sp.renderer escape extra).handle event).run
          ((sp.renderer escape extra).after script))
  onlyFaults : ∀ event halt,
    (sp.byteRenderer escape extra).fault? ((sp.byteRenderer escape extra).after script) event
      = some halt → ∃ fault, halt = .fault fault

theorem keepsMarks (script : List Event)
    : sp.KeepsMarks escape extra script := by
  have encode_after : (sp.byteRenderer escape extra).after script
      = ((sp.renderer escape extra).after script).encode :=
    (foldl_step_encode sp escape extra ScopedText.inOrder_empty script).1
  have inOrder : ((sp.renderer escape extra).after script).InOrder :=
    (foldl_step_encode sp escape extra ScopedText.inOrder_empty script).2
  have run_handle := fun event => run_byteRenderer_encode sp escape extra inOrder event
  rw [← encode_after] at run_handle
  refine ⟨encode_after ▸ inOrder.wellMarked, encode_after, run_handle, ?_⟩
  intro event halt fails
  rw [Renderer.fault?, run_handle, faultOf_inBytes, Option.map_eq_some_iff] at fails
  obtain ⟨fault, -, rfl⟩ := fails
  exact ⟨fault, rfl⟩

/-- Both wildcard languages keep their marks, whatever events they hear and whichever of them
fail. -/
theorem scripts_keep_marks (script : List Event)
    : Unix.spelling.KeepsMarks escape extra script
      ∧ Sql92.spelling.KeepsMarks escape extra script :=
  ⟨Unix.spelling.keepsMarks escape extra script, Sql92.spelling.keepsMarks escape extra script⟩

/-- The end of a repetition in a group fails and takes away the text of the group, of which the
first character has two bytes. The mark of the scope outside stays behind a character of two
bytes. -/
example
    : (Unix.spelling.byteRenderer '\\' []).after [.enter .literal none (some ['é']),
        .enter .group none none, .enter .group none none, .enter .literal none (some ['ü', 'a']),
        .leave .atLeast]
      = ⟨[0xc3, 0xa9], [⟨2, none⟩]⟩ :=
  rfl

end Spelling

end Wildcard
