import Wildcard.Dialect

/-! The options of the command.
Arguments are taken from left to right, and the first fault among them is reported. Of two
options on the same matter the later one counts.
-/

namespace Wildcard

structure Options where
  dialect : Dialect
  escape : Option Char
  /-- The dialect to write the pattern in, instead of matching lines. -/
  target : Option Dialect
  pattern : List Char

namespace Options

/-- The options as far as they are known; the pattern may still be missing. -/
structure Draft where
  dialect : Dialect
  escape : Option Char
  target : Option Dialect
  pattern : Option (List Char)

inductive Flag where
  | sql92
  | noEscape
  | escape
  | target

def Flag.ofArgument? : String → Option Flag
  | "-s" | "--sql92" => some .sql92
  | "--no-escape" => some .noEscape
  | "-e" | "--escape" => some .escape
  | "-t" | "--to" => some .target
  | _ => none

/-- The single character of a value. -/
def escapeOf? (value : String) : Except Error Char :=
  match value.toList with
  | [c] => .ok c
  | _ => .error (.usage (.escapeNotSingle value))

/-- Takes the arguments one by one; an option with a value takes two, whatever the second is. -/
def readArguments (draft : Draft) : List String → Except Error Draft
  | [] => .ok draft
  | argument :: rest =>
      match Flag.ofArgument? argument, rest with
      | some .sql92, rest => readArguments { draft with dialect := .sql92 } rest
      | some .noEscape, rest => readArguments { draft with escape := none } rest
      | some .escape, [] => .error (.usage .missingEscape)
      | some .escape, value :: rest => do
          readArguments { draft with escape := some (← escapeOf? value) } rest
      | some .target, [] => .error (.usage .missingTarget)
      | some .target, value :: rest => do
          readArguments { draft with target := some (← Dialect.ofName? value) } rest
      | none, rest =>
          match draft.pattern with
          | none => readArguments { draft with pattern := some argument.toList } rest
          | some _ => .error (.usage (.unexpectedArgument argument))

/-- The options that some arguments give. -/
def parse? (arguments : List String) : Except Error Options := do
  let draft ← readArguments ⟨.unix, some Unix.escape, none, none⟩ arguments
  match draft.pattern with
  | none => throw (.usage .noPattern)
  | some pattern => return ⟨draft.dialect, draft.escape, draft.target, pattern⟩

def readPattern? (options : Options) : Except Error Pattern :=
  options.dialect.read? options.escape options.pattern

end Options

end Wildcard
