import Dataflow.Proofs.Balance.Cache
import Dataflow.Protocol.Sources
import Dataflow.Protocol.Users

namespace Dataflow

open Dataflow.Action

theorem Action.after_map {σ α β : Type} (f : α → β) (action : Action σ α) (s : σ) :
    (f <$> action).after s = action.after s := by
  rw [map_eq_pure_bind]
  show after (EStateM.bind action fun a => pure (f a)) s = _
  unfold after EStateM.bind
  cases action s <;> rfl

namespace Graph

/-- A property of graphs that no operation breaks, whether it succeeds or is refused. -/
def Lasting (P : Graph → Prop) : Prop :=
  ∀ g (op : Operation), P g → P (op.perform.after g)

theorem lasting_reachable : Lasting Reachable :=
  fun _ op hg => hg.perform op

namespace Lasting

variable {P : Graph → Prop} {type name : String} {direction : Direction}

private theorem addActor (hP : Lasting P) {execTime : Int} {auto : Bool} :
    (Graph.addActor name type execTime auto).Keeps P := by
  intro g hg
  have hkept := hP g (.addActor name type execTime auto) hg
  rwa [Operation.perform, after_map] at hkept

private theorem addPort (hP : Lasting P) {rate : Option String} :
    (Graph.addPort type name direction rate).Keeps P := by
  intro g hg
  have hkept := hP g (.addPort type name direction rate) hg
  rwa [Operation.perform, after_map] at hkept

private theorem addChannel (hP : Lasting P) {source target : String × String} {spec : ChannelSpec} :
    (Graph.addChannel source target spec).Keeps P := by
  intro g hg
  have hkept := hP g (.addChannel source target spec) hg
  rwa [Operation.perform, after_map] at hkept

end Lasting

/-- A property of graphs that survives the addition of ports, and of channels that an analysis
adds. -/
structure Wirable (P : Graph → Prop) : Prop where
  addPort : ∀ type name direction rate, (Graph.addPort type name direction rate).Keeps P
  addChannel : ∀ source target spec, spec.auto = true →
    (Graph.addChannel source target spec).Keeps P

theorem Lasting.wirable {P : Graph → Prop} (hP : Lasting P) : Wirable P :=
  ⟨fun _ _ _ _ => hP.addPort, fun _ _ _ _ => hP.addChannel⟩

private theorem Wirable.ensurePort {P : Graph → Prop} (hP : Wirable P) {type name rate : String}
    {direction : Direction} : (Graph.ensurePort type name direction rate).Keeps P := by
  refine keeps_get_bind fun g hg => ?_
  split
  · exact (hP.addPort _ _ _ _).bind (fun _ => keeps_pure _) g hg
  · exact hg

end Graph

namespace Workspace

section Actions

variable {P : Graph → Protocol → Prop}

private theorem keeps_onGraph {α : Type} {action : Action Graph α} (h : ∀ p, action.Keeps (P · p)) :
    (onGraph action).Keeps fun w => P w.graph w.protocol := by
  intro w hw
  have hg := h w.protocol w.graph hw
  unfold after at hg ⊢
  unfold onGraph within
  cases hstep : action w.graph with
  | ok a g => simpa only [hstep] using hg
  | error e g => simpa only [hstep] using hg

theorem keeps_onRates {α : Type} (action : Action RateCache α) :
    (onRates action).Keeps fun w => P w.graph w.protocol :=
  (keeps_true action).within (fun _ _ => trivial) fun _ _ hw _ => hw

theorem keeps_updateProtocol {change : Protocol → Protocol} (h : ∀ g p, P g p → P g (change p)) :
    (updateProtocol change).Keeps fun w => P w.graph w.protocol :=
  keeps_modify fun _ hw => h _ _ hw

theorem keeps_note {level : Level} {message : String} :
    (note level message).Keeps fun w => P w.graph w.protocol :=
  keeps_modify fun _ hw => hw

end Actions

section Insertion

variable {P : Graph → Prop}

/-- What is noted about the parameters does not change the graph. -/
theorem keeps_noting {change : Protocol → Protocol} :
    (updateProtocol change).Keeps fun w => P w.graph :=
  keeps_updateProtocol (P := fun g _ => P g) fun _ _ hg => hg

variable (hP : Graph.Lasting P)
include hP

private theorem keeps_insertPeriodActor {output type name : String} {feeder : Actor} :
    (insertPeriodActor output type name feeder).Keeps fun w => P w.graph := by
  refine (keeps_onGraph (P := fun g _ => P g) fun _ => hP.addActor).bind fun source => ?_
  refine (keeps_onGraph (P := fun g _ => P g) fun _ => hP.addChannel).bind fun _ => ?_
  exact keeps_noting.bind fun _ => keeps_pure _

private theorem keeps_insertPeriodActorsOf {m : Modifier} :
    (insertPeriodActorsOf m).Keeps fun w => P w.graph := by
  refine (keeps_onGraph (P := fun g _ => P g) fun _ => hP.addPort).bind fun _ => ?_
  refine (keeps_onGraph (P := fun g _ => P g) fun _ => hP.addPort).bind fun _ => ?_
  refine keeps_get_bind fun w hw => ?_
  refine (keeps_mapM fun item _ => keeps_insertPeriodActor hP).bind (fun _ => ?_) w hw
  exact keeps_noting.bind fun _ => keeps_note (P := fun g _ => P g)

theorem keeps_insertPeriodActors : insertPeriodActors.Keeps fun w => P w.graph := by
  refine keeps_get_bind fun w hw => ?_
  split
  · exact hw
  · refine keeps_noting.bind (fun _ => keeps_get_bind fun w hw => ?_) w hw
    exact keeps_forM (fun m _ => keeps_insertPeriodActorsOf hP) w hw

end Insertion

section Wiring

variable {P : Graph → Protocol → Prop} (hP : ∀ p, Graph.Wirable (P · p)) {table : Repetitions}
  {parameter : String} {source : Actor} {sourceCount : Monomial}
include hP

private theorem keeps_connectUser {index : Nat} {user : Actor} :
    (connectUser table parameter source sourceCount index user).Keeps
      fun w => P w.graph w.protocol := by
  refine (keeps_ofExcept _).bind fun _ => (keeps_ofExcept _).bind fun _ => ?_
  refine (keeps_ofExcept _).bind fun _ => ?_
  refine (keeps_onGraph fun p => (hP p).addPort _ _ _ _).bind fun _ => ?_
  refine (keeps_onGraph fun p => (hP p).ensurePort).bind fun _ => ?_
  exact keeps_onGraph fun p => (hP p).addChannel _ _ _ rfl

private theorem keeps_connectUsers {index : Nat} {users : List Actor} :
    (connectUsers table parameter source sourceCount index users).Keeps
      fun w => P w.graph w.protocol := by
  induction users generalizing index with
  | nil => exact keeps_pure _
  | cons user users ih =>
    refine keeps_get_bind fun w hw => ?_
    split
    · exact ih w hw
    · exact (keeps_connectUser hP).bind (fun _ => ih.bind fun _ => keeps_pure _) w hw

private theorem keeps_connectParameter :
    (connectParameter table parameter).Keeps fun w => P w.graph w.protocol := by
  refine keeps_get_bind fun w hw => ?_
  dsimp only
  cases w.protocol.source? parameter with
  | none => exact hw
  | some source => exact (keeps_ofExcept _).bind (fun _ => keeps_connectUsers hP) w hw

/-- What the deliveries leave alone: the graph grows by ports and by channels of an analysis, and
nothing is noted about the parameters but that they are delivered. -/
theorem keeps_connectSources (hconnected : ∀ g p, P g p → P g { p with connected := true }) :
    (connectSources table).Keeps fun w => P w.graph w.protocol := by
  refine keeps_get_bind fun w hw => ?_
  split
  · exact hw
  · refine (keeps_updateProtocol hconnected).bind (fun _ => keeps_get_bind fun w hw => ?_) w hw
    exact (keeps_mapM fun _ _ => keeps_connectParameter hP).bind
      (fun _ => keeps_note.bind fun _ => keeps_pure _) w hw

end Wiring

end Workspace

end Dataflow
