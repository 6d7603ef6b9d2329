import Wildcard.Command

/-! The command line. Input is read only if there are lines to be filtered. -/

namespace Wildcard.Main

def perform (arguments : List String) : IO Outcome :=
  match Command.task? arguments with
  | .ok (.filter m) => do return Command.filterBytes m (← (← IO.getStdin).readBinToEnd)
  | _ => return Command.run arguments .empty

end Wildcard.Main

def main (arguments : List String) : IO UInt32 := do
  let outcome ← Wildcard.Main.perform arguments
  IO.print (String.ofList outcome.output)
  IO.eprint (String.ofList outcome.diagnostics)
  return outcome.status
