import Dataflow.Failure

namespace Dataflow

/-- A step over a state `σ` that may fail. What it changed before it failed stays changed. -/
abbrev Action (σ : Type) := EStateM Failure σ

namespace Action

variable {σ τ α : Type}

/-- A computation that reads and changes nothing. -/
def ofExcept : Except Failure α → Action σ α
  | .ok a => fun s => .ok a s
  | .error e => fun s => .error e s

instance : MonadLift (Except Failure) (Action σ) where
  monadLift := ofExcept

/-- Carry out an action on one part of a larger state. -/
def within (read : σ → τ) (write : σ → τ → σ) (action : Action τ α) : Action σ α := fun s =>
  match action (read s) with
  | .ok a t => .ok a (write s t)
  | .error e t => .error e (write s t)

end Action

end Dataflow
