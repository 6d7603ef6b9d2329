import Wildcard.Render
import Wildcard.Text

/-! Text with open scopes.
Opening a scope marks the end of the text. Closing it cuts off what was written since, so that
the fragment can be repeated before it is written back. A close that fails keeps what it has
done so far: the mark is gone, and so is the fragment.

Only the copies of a fragment have to fit into a text here. That a text has a largest length also
when more is added to it is left to `Spelling.limitedRenderer`.
-/

namespace Wildcard

/-- The length of the text where a scope was opened, and the count of a scope to be repeated. -/
structure Mark where
  offset : Nat
  count : Option Nat

/-- Text, and the marks of the open scopes with the innermost first. -/
structure ScopedText where
  text : List Char
  marks : List Mark

namespace ScopedText

def empty : ScopedText := ⟨[], []⟩

def write (chars : List Char) : EStateM Error ScopedText Unit :=
  modify fun s => { s with text := s.text ++ chars }

def openScope (count : Option Nat) : EStateM Error ScopedText Unit :=
  modify fun s => { s with marks := ⟨s.text.length, count⟩ :: s.marks }

@[simp]
theorem run_write (chars : List Char) (s : ScopedText)
    : (write chars).run s = .ok () { s with text := s.text ++ chars } :=
  rfl

@[simp]
theorem run_openScope (count : Option Nat) (s : ScopedText)
    : (openScope count).run s
      = .ok () { s with marks := ⟨s.text.length, count⟩ :: s.marks } :=
  rfl

/-- Takes away the innermost mark and the text since it. -/
def cutScope : EStateM Error ScopedText (List Char × Option Nat) := do
  let s ← get
  match s.marks with
  | [] => throw .unopenedScope
  | mark :: marks =>
      set (ScopedText.mk (s.text.take mark.offset) marks)
      return (s.text.drop mark.offset, mark.count)

@[simp]
theorem run_cutScope_nil (text : List Char)
    : cutScope.run ⟨text, []⟩ = .error .unopenedScope ⟨text, []⟩ :=
  rfl

@[simp]
theorem run_cutScope_cons (text : List Char) (mark : Mark) (marks : List Mark)
    : cutScope.run ⟨text, mark :: marks⟩
      = .ok (text.drop mark.offset, mark.count) ⟨text.take mark.offset, marks⟩ :=
  rfl

/-- Closes the innermost scope and leaves its text as it is. -/
def closeScope : EStateM Error ScopedText Unit := do
  let (fragment, _) ← cutScope
  write fragment

@[simp]
theorem run_closeScope_nil (text : List Char)
    : closeScope.run ⟨text, []⟩ = .error .unopenedScope ⟨text, []⟩ :=
  rfl

@[simp]
theorem run_closeScope_cons (text : List Char) (mark : Mark) (marks : List Mark)
    : closeScope.run ⟨text, mark :: marks⟩ = .ok () ⟨text, marks⟩ := by
  simp [closeScope]

/-- Closes the innermost scope, repeats its text as often as it was opened for, and writes a
last character. -/
def closeRepeated (last : Char) : EStateM Error ScopedText Unit := do
  let (fragment, count) ← cutScope
  let count ← requireCount count
  unless Text.fits (Text.byteLength fragment) count do
    throw (.repetitionTooLong (Text.byteLength fragment) count)
  write (Text.repeated count fragment ++ [last])

@[simp]
theorem run_closeRepeated_nil (last : Char) (text : List Char)
    : (closeRepeated last).run ⟨text, []⟩ = .error .unopenedScope ⟨text, []⟩ :=
  rfl

/-- Closing a scope to be repeated keeps what stands before it, and its copies if there is a count
and they fit. -/
@[simp]
theorem run_closeRepeated_cons (last : Char) (text : List Char) (mark : Mark) (marks : List Mark)
    : (closeRepeated last).run ⟨text, mark :: marks⟩
      = match mark.count with
        | none => .error .missingCount ⟨text.take mark.offset, marks⟩
        | some count =>
            let fragment := text.drop mark.offset
            if Text.fits (Text.byteLength fragment) count then
              .ok () ⟨text.take mark.offset ++ (Text.repeated count fragment ++ [last]), marks⟩
            else
              .error (.repetitionTooLong (Text.byteLength fragment) count)
                ⟨text.take mark.offset, marks⟩ := by
  obtain ⟨offset, count⟩ := mark
  cases count with
  | none => rfl
  | some count =>
      cases fits : Text.fits (Text.byteLength (text.drop offset)) count <;>
        simp [closeRepeated, fits]

end ScopedText

end Wildcard
