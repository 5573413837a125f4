import Dataflow.Graph.Lookup
import Dataflow.Monomial

namespace Dataflow

/-- Parsed rates by the handles of their ports. A rate never changes once a port has it. -/
structure RateCache where
  entries : List (Handle × Monomial)

namespace RateCache

/-- No rate was parsed yet. -/
def empty : RateCache :=
  ⟨[]⟩

/-- How many rates were parsed. -/
def size (cache : RateCache) : Nat :=
  cache.entries.length

/-- The parsed rate of a port, if the port has one. -/
def rate? (g : Graph) (p : Port) : Action RateCache (Option Monomial) := do
  match (← get).entries.lookup p.id with
  | some rate => return some rate
  | none =>
    match g.rateText? p with
    | none => return none
    | some text =>
      let rate ← Monomial.parse text
      modify fun cache => ⟨cache.entries ++ [(p.id, rate)]⟩
      return some rate

/-- The parsed rate of a port that must have one. -/
def rate (g : Graph) (p : Port) : Action RateCache Monomial := do
  match ← rate? g p with
  | some rate => return rate
  | none => throw (.rateMissing p.text)

/-- Parse the rates of all ports, in their order. -/
def parseAll (g : Graph) : Action RateCache Unit :=
  g.ports.forM fun p => do
    let _ ← rate? g p

end RateCache

end Dataflow
