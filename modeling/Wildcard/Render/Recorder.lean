import Wildcard.Render

/-! A renderer that writes nothing and keeps the list of its calls. -/

namespace Wildcard

inductive Call where
  | event (event : Event)
  | finish
  deriving DecidableEq

/-- Adds a call to the list; the call that makes the list `stopAt` long fails. -/
def record (stopAt : Option Nat) (call : Call) : EStateM Unit (List Call) Unit := do
  modify (· ++ [call])
  if stopAt == some (← get).length then throw ()

def recorder (stopAt : Option Nat) : Renderer (List Call) Unit Unit where
  initial := []
  handle event := record stopAt (.event event)
  finish := record stopAt .finish

end Wildcard
