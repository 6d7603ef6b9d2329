import Wildcard.Error
import Wildcard.Pattern

/-! Writing a pattern by way of events.
A renderer hears that a node is entered, then all of its children, then that the node is left,
and is asked for its result once the whole pattern has been heard. The first call that fails
ends the rendering. Each call works on the state that the calls before it left behind.
-/

namespace Wildcard

/-- What a renderer hears. The count is that of a repetition, the characters are those of a
literal or a choice; the other kinds carry neither. -/
inductive Event where
  | enter (kind : Kind) (count : Option Nat) (chars : Option (List Char))
  | leave (kind : Kind)
  deriving DecidableEq

/-- The count that the events of a repetition must carry. -/
def requireCount {σ : Type} (count : Option Nat) : EStateM Error σ Nat :=
  match count with
  | some count => pure count
  | none => throw .missingCount

@[simp]
theorem requireCount_some {σ : Type} (count : Nat)
    : (requireCount (some count) : EStateM Error σ Nat) = pure count :=
  rfl

@[simp]
theorem run_requireCount_none {σ : Type} (s : σ)
    : (requireCount none).run s = .error .missingCount s :=
  rfl

/-- A way of writing patterns: the state it begins with, what it does at an event, and how it
makes its result. -/
structure Renderer (σ ε α : Type) where
  initial : σ
  handle : Event → EStateM ε σ Unit
  finish : EStateM ε σ α

namespace Pattern

variable {σ ε α : Type}

mutual

def visit (r : Renderer σ ε α) : Pattern → EStateM ε σ Unit
  | .empty => do
      r.handle (.enter .empty none none)
      r.handle (.leave .empty)
  | .anyChar => do
      r.handle (.enter .anyChar none none)
      r.handle (.leave .anyChar)
  | .literal text => do
      r.handle (.enter .literal none (some text))
      r.handle (.leave .literal)
  | .oneOf candidates => do
      r.handle (.enter .oneOf none (some candidates))
      r.handle (.leave .oneOf)
  | .group items => do
      r.handle (.enter .group none none)
      visitAll r items
      r.handle (.leave .group)
  | .atLeast body count => do
      r.handle (.enter .atLeast (some count) none)
      visit r body
      r.handle (.leave .atLeast)

def visitAll (r : Renderer σ ε α) : List Pattern → EStateM ε σ Unit
  | [] => pure ()
  | item :: items => do
      visit r item
      visitAll r items

end

/-- The outcome of a rendering together with the state at its end. -/
def run (p : Pattern) (r : Renderer σ ε α) : EStateM.Result ε σ α :=
  EStateM.run (do visit r p; r.finish) r.initial

def render (p : Pattern) (r : Renderer σ ε α) : Except ε α :=
  match p.run r with
  | .ok result _ => .ok result
  | .error fault _ => .error fault

end Pattern

end Wildcard
