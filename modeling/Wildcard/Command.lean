import Wildcard.Command.Options
import Wildcard.Matcher
import Wildcard.Text.Lines

/-! What the command does.
It either writes a pattern in another dialect, without a look at its input, or it writes the
lines of its input that the pattern matches. Its status tells whether there was anything to
write, and is 2 after a fault.
-/

namespace Wildcard

/-- What a run leaves behind. -/
structure Outcome where
  status : UInt32
  output : List Char
  diagnostics : List Char

namespace Outcome

def failure (fault : Error) : Outcome := ⟨2, [], fault.message.toList ++ ['\n']⟩

/-- Writes one text on a line of its own. -/
def written (text : List Char) : Outcome := ⟨0, text ++ ['\n'], []⟩

/-- Writes the lines that a matcher accepts. -/
def filtered (m : Matcher) (input : List Char) : Outcome :=
  let found := (Text.lines input).filter m.test
  ⟨if found.isEmpty then 1 else 0, found.flatMap (· ++ ['\n']), []⟩

end Outcome

namespace Command

/-- What there is to do once the arguments are known. -/
inductive Task where
  | write (text : List Char)
  | filter (matcher : Matcher)

def task? (arguments : List String) : Except Error Task := do
  let options ← Options.parse? arguments
  let pattern ← options.readPattern?
  match options.target with
  | some target => return .write (← target.write? options.escape pattern)
  | none => return .filter (← pattern.matcher?)

/-- Filters bytes, which must be text in UTF-8. -/
def filterBytes (m : Matcher) (input : ByteArray) : Outcome :=
  match String.fromUTF8? input with
  | none => .failure .inputNotText
  | some text => .filtered m text.toList

def run (arguments : List String) (input : ByteArray) : Outcome :=
  match task? arguments with
  | .error fault => .failure fault
  | .ok (.write text) => .written text
  | .ok (.filter m) => filterBytes m input

end Command

end Wildcard
