import Dataflow.Graph.Lookup
import Dataflow.Monomial

namespace Dataflow

/-- A monomial for each actor, under the actors' handles. -/
structure Repetitions where
  entries : List (Handle × Monomial)

namespace Repetitions

/-- How often an actor fires. -/
def get (table : Repetitions) (a : Actor) : Except Failure Monomial :=
  match table.entries.lookup a.id with
  | some count => .ok count
  | none => .error (.unsolvedActor a.name)

/-- Whether a table has a count for an actor. -/
def contains (table : Repetitions) (a : Actor) : Bool :=
  (table.entries.lookup a.id).isSome

/-- How many actors a table has counts for. -/
def size (table : Repetitions) : Nat :=
  table.entries.length

/-- The actors of a table, which must still be in the graph. -/
def items (table : Repetitions) (g : Graph) : Except Failure (List (Actor × Monomial)) :=
  table.entries.mapM fun entry => do return (← g.actorAt entry.1, entry.2)

/-- The names of the actors with the texts of their counts. -/
def rows (table : Repetitions) (g : Graph) : Except Failure (List (String × String)) := do
  (← table.items g).mapM fun item => do return (item.1.name, ← item.2.render)

/-- The table in one line. -/
def render (table : Repetitions) (g : Graph) : Except Failure String := do
  return " ".intercalate ((← table.rows g).map fun row => s!"{row.1}({row.2})")

end Repetitions

end Dataflow
