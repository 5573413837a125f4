namespace Dataflow

/-- Tokens leave an actor through an output and enter it through an input. -/
inductive Direction where
  | output
  | input
  deriving DecidableEq

namespace Direction

/-- The direction at the other end of a channel. -/
def opposite : Direction → Direction
  | output => input
  | input => output

/-- The word that texts use for a direction. -/
def word : Direction → String
  | output => "OUT"
  | input => "IN"

/-- The direction of a word. -/
def ofWord? (s : String) : Option Direction :=
  if s = "OUT" then some output else if s = "IN" then some input else none

@[simp]
theorem opposite_opposite (d : Direction) : d.opposite.opposite = d := by
  cases d <;> rfl

end Direction

end Dataflow
