import Dataflow.Proofs.Graph.Store
import Dataflow.Protocol.Store

namespace Dataflow

open Dataflow.Action

/-- A workspace over a well-formed graph, and what it is when the graph is stored. -/
inductive Workspace.Stored : Workspace → StoredWorkspace → Prop
  | intro {w : Workspace} (hg : w.graph.WellFormed) :
    Stored w ⟨w.graph.store, w.protocol, w.journal⟩

namespace StoredWorkspace

private theorem matches_note (level : Level) (message : String) :
    Matches Workspace.Stored (Workspace.note level message) (note level message) := by
  refine matches_modify ?_
  rintro w _ ⟨hg⟩
  exact .intro hg

private theorem matches_updateProtocol (change : Protocol → Protocol) :
    Matches Workspace.Stored (Workspace.updateProtocol change) (updateProtocol change) := by
  refine matches_modify ?_
  rintro w _ ⟨hg⟩
  exact .intro hg

private theorem matches_onStore {α : Type} {action : Action Graph α}
    {action' : Action Graph.Store α} (h : Matches Graph.Stored action action') :
    Matches Workspace.Stored (Workspace.onGraph action) (onStore action') := by
  refine h.within ?_ ?_
  · rintro w _ ⟨hg⟩
    exact .intro hg
  · rintro w _ g _ ⟨-⟩ ⟨hg⟩
    exact .intro hg

private theorem matches_read {α : Type} {next : Workspace → Action Workspace α}
    {next' : StoredWorkspace → Action StoredWorkspace α}
    (h : ∀ w : Workspace, w.graph.WellFormed →
      Matches Workspace.Stored (next w) (next' ⟨w.graph.store, w.protocol, w.journal⟩)) :
    Matches Workspace.Stored (get >>= next) (get >>= next') := by
  refine matches_get_bind ?_
  rintro w _ ⟨hg⟩
  exact h w hg

section Insertion

private theorem matches_insertPeriodActor (output type name : String) (feeder : Actor) :
    Matches Workspace.Stored (Workspace.insertPeriodActor output type name feeder)
      (insertPeriodActor output type name feeder) := by
  refine (matches_onStore Graph.matches_store_addActor).bind fun source => ?_
  refine (matches_onStore Graph.matches_store_addChannel).bind fun _ => ?_
  exact (matches_updateProtocol _).bind fun _ => matches_pure _

/-- The actors that feed the period actors are found by the list of their type. -/
theorem feedersOf_eq {g : Graph} (hg : g.WellFormed) (type : String) :
    feedersOf g.store type = .ok (g.instances type) := by
  have hinstances : (g.store.instances type).getD [] = (g.instances type).map (·.id) :=
    Graph.getD_tables_instances hg.types_known
  have hactors : g.store.actorsOf type = g.actorsOf type := hg.tables_actorsOf
  rw [feedersOf, Graph.Tables.hasType, hinstances, hactors, List.isEmpty_map]
  cases hempty : g.instances type with
  | nil => rfl
  | cons a actors =>
    have ha : a ∈ g.instances type := by simp [hempty]
    obtain ⟨hmem, htype⟩ := List.mem_filter.mp ha
    have hknown : g.types.contains type = true :=
      List.contains_iff_mem.mpr (eq_of_beq htype ▸ hg.types_known a hmem)
    rw [Graph.actorsOf, hknown, hempty]
    rfl

private theorem matches_insertPeriodActorsOf (m : Modifier) :
    Matches Workspace.Stored (Workspace.insertPeriodActorsOf m) (insertPeriodActorsOf m) := by
  refine (matches_onStore Graph.matches_store_addPort).bind fun _ => ?_
  refine (matches_onStore Graph.matches_store_addPort).bind fun _ => ?_
  refine matches_read fun w hg => ?_
  rw [feedersOf_eq hg]
  refine Matches.ok_bind ((matches_mapM fun item => matches_insertPeriodActor _ _ _ _).bind
    fun sources => ?_)
  exact (matches_updateProtocol _).bind fun _ => matches_note _ _

theorem matches_insertPeriodActors :
    Matches Workspace.Stored Workspace.insertPeriodActors insertPeriodActors := by
  refine matches_read fun w _ => .ite (matches_throw _) ?_
  refine (matches_updateProtocol _).bind fun _ => matches_read fun w _ => ?_
  exact matches_forM matches_insertPeriodActorsOf

end Insertion

section Wiring

variable {table : Repetitions} {parameter : String} {source : Actor} {sourceCount : Monomial}

private theorem matches_connectUser (index : Nat) (user : Actor) :
    Matches Workspace.Stored (Workspace.connectUser table parameter source sourceCount index user)
      (connectUser table parameter source sourceCount index user) := by
  refine (matches_lift _).bind fun count => (matches_lift _).bind fun ratio => ?_
  refine (matches_lift _).bind fun rate => ?_
  refine (matches_onStore Graph.matches_store_addPort).bind fun output => ?_
  refine (matches_onStore Graph.matches_store_ensurePort).bind fun _ => ?_
  exact matches_onStore Graph.matches_store_addChannel

private theorem matches_connectUsers (index : Nat) (users : List Actor) :
    Matches Workspace.Stored
      (Workspace.connectUsers table parameter source sourceCount index users)
      (connectUsers table parameter source sourceCount index users) := by
  induction users generalizing index with
  | nil => exact matches_pure _
  | cons user users ih =>
    refine matches_read fun w _ => .ite (ih index) ?_
    exact (matches_connectUser index user).bind fun channel =>
      (ih (index + 1)).bind fun _ => matches_pure _

private theorem matches_connectParameter (parameter : String) :
    Matches Workspace.Stored (Workspace.connectParameter table parameter)
      (connectParameter table parameter) := by
  refine matches_read fun w _ => ?_
  dsimp only
  cases w.protocol.source? parameter with
  | none => exact matches_pure _
  | some source => exact (matches_lift _).bind fun _ => matches_connectUsers _ _

theorem matches_connectSources (table : Repetitions) :
    Matches Workspace.Stored (Workspace.connectSources table) (connectSources table) := by
  refine matches_read fun w _ => .ite (matches_throw _) ?_
  refine (matches_updateProtocol _).bind fun _ => matches_read fun w _ => ?_
  refine (matches_mapM matches_connectParameter).bind fun created => ?_
  exact (matches_note _ _).bind fun _ => matches_pure _

end Wiring

end StoredWorkspace

end Dataflow
