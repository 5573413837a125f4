import Dataflow.Balance.Inconsistency
import Dataflow.Balance.Repetitions
import Dataflow.Rates
import Dataflow.Verdict

namespace Dataflow.Balance

/-- Firing counts relative to the start, in the order in which the actors were reached. -/
abbrev Fractions := List (Handle × Ratio)

/-- The count of an actor that was reached. -/
def fraction (fractions : Fractions) (a : Actor) : Except Failure Ratio :=
  match fractions.lookup a.id with
  | some f => .ok f
  | none => .error (.unknownHandle a.id)

/-- Carry the counts over the links of a spanning tree. -/
def propagate (g : Graph) : Fractions → (tree : List Link) → Action RateCache Fractions
  | fractions, [] => return fractions
  | fractions, link :: tree => do
    let nearRate ← RateCache.rate g link.near.port
    let farRate ← RateCache.rate g link.far.port
    let near ← fraction fractions link.near.actor
    propagate g (fractions ++ [(link.far.actor.id, near * .of nearRate farRate)]) tree

/-- How much more a channel receives than it delivers. -/
def imbalance (g : Graph) (fractions : Fractions) (c : Channel) : Action RateCache Ratio := do
  let source ← fraction fractions c.source.actor
  let produced ← RateCache.rate g c.source.port
  let target ← fraction fractions c.target.actor
  let consumed ← RateCache.rate g c.target.port
  return source * .ofMonomial produced / (target * .ofMonomial consumed)

/-- The first channel that is not balanced. -/
def mismatch? (g : Graph) (fractions : Fractions) :
    List Channel → Action RateCache (Option (Channel × Ratio))
  | [] => return none
  | c :: channels => do
    let ratio ← imbalance g fractions c
    if ratio.isOne then mismatch? g fractions channels else return some (c, ratio)

/-- The channels that a tree does not use. -/
def offTree (g : Graph) (tree : List Link) : List Channel :=
  g.channels.filter fun c => !tree.any (·.channel.id == c.id)

/-- The least monomial that all denominators divide. -/
def commonDenominator (fractions : Fractions) : Monomial :=
  fractions.foldl (fun m entry => m.lcm entry.2.denominator) .one

/-- The whole count of an actor, when counts are multiplied by `factor`. -/
def wholeCount (fractions : Fractions) (factor : Ratio) (a : Actor) : Except Failure Monomial := do
  let f ← fraction fractions a
  (f * factor).collapse

/-- Whole counts for all actors of the graph, in its order. -/
def scale (g : Graph) (fractions : Fractions) : Except Failure Repetitions := do
  let factor := Ratio.ofMonomial (commonDenominator fractions)
  let entries ← g.actors.mapM fun a => do return (a.id, ← wholeCount fractions factor a)
  return ⟨entries⟩

/-- Solve the equations, starting from the given actor. -/
def solveFrom (g : Graph) (start : Actor) : Action RateCache (Verdict Repetitions Inconsistency) := do
  let tree := spanningTree g start
  let fractions ← propagate g [(start.id, .one)] tree
  if fractions.length ≠ g.actors.length then
    throw (.disconnected g.actors.length fractions.length)
  match ← mismatch? g fractions (offTree g tree) with
  | some (reference, ratio) => return .violated ⟨spliceCycle tree reference, ratio, reference⟩
  | none => return .success (← scale g fractions)

/-- Solve the equations, starting from the given actor or from the first one. A graph without
actors is balanced. -/
def solve (g : Graph) (start : Option Actor) :
    Action RateCache (Verdict Repetitions Inconsistency) :=
  match g.actors.head? with
  | none => return .success ⟨[]⟩
  | some first => solveFrom g (start.getD first)

end Dataflow.Balance
