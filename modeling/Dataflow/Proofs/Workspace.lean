import Dataflow.Proofs.Balance.Solver
import Dataflow.Workspace

namespace Dataflow.Workspace

open Dataflow.Action

/-- The graph and the protocol are as given, and the parsed rates are those of the graph. -/
structure Rests (g : Graph) (p : Protocol) (w : Workspace) : Prop where
  graph_eq : w.graph = g
  protocol_eq : w.protocol = p
  agrees : w.rates.Agrees g

variable {g : Graph} {p : Protocol} {α : Type}

private theorem note_rests {level : Level} {message : String} :
    (note level message).Keeps (Rests g p) :=
  keeps_modify fun _ hw => ⟨hw.graph_eq, hw.protocol_eq, hw.agrees⟩

private theorem onRates_rests {action : Action RateCache α}
    (h : action.Keeps (RateCache.Agrees · g)) : (onRates action).Keeps (Rests g p) :=
  h.within (fun _ hw => hw.agrees) fun _ _ hw hr => ⟨hw.graph_eq, hw.protocol_eq, hr⟩

theorem onGraph_failsOnly {I : Workspace → Prop} {P : Failure → Prop} {α : Type}
    {action : Action Graph α} (h : action.FailsOnly (fun _ => True) P) :
    (onGraph action).FailsOnly I P :=
  h.within fun _ _ => trivial

theorem parseRates_rests : parseRates.Keeps (Rests g p) := by
  unfold parseRates
  apply keeps_get_bind
  intro w hw
  refine after_bind (onRates_rests ?_ w hw) fun _ => keeps_get_bind fun w hw => ?_
  · rw [hw.graph_eq]
    exact RateCache.parseAll_keeps
  · exact note_rests w hw

private theorem noteBalance_rests {start : Actor} {verdict : Verdict Repetitions Inconsistency} :
    (noteBalance g start verdict).Keeps (Rests g p) := by
  cases verdict with
  | success table => exact (keeps_ofExcept _).bind fun _ => note_rests
  | violated evidence =>
    refine (keeps_ofExcept _).bind fun _ => note_rests.bind fun _ => ?_
    exact (keeps_ofExcept _).bind fun _ => note_rests

theorem solve_rests {start : Option Actor} : (solve start).Keeps (Rests g p) := by
  unfold solve
  apply keeps_get_bind
  intro w hw
  rw [hw.graph_eq]
  refine (onRates_rests (Balance.solve_keeps start)).bind (fun verdict => ?_) w hw
  cases g.actors.head? with
  | none => exact keeps_pure _
  | some first => exact noteBalance_rests.bind fun _ => keeps_pure _

end Dataflow.Workspace
