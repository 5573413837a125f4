import Dataflow.Proofs.Graph.Coherence
import Dataflow.Proofs.Protocol.Operations
import Dataflow.Proofs.Protocol.Store

namespace Dataflow.Graph

open Dataflow.Action

/-- An event in the life of a graph: an operation, also one with the record of an actor that was
removed since, or an action of the protocol. What the protocol has recorded when it starts may be
anything. -/
inductive Event where
  | operation (op : Operation)
  | removeActor (a : Actor)
  | insertChannelBetween (source target : Actor) (sourceRate targetRate : String)
      (initialTokens tokenSize : Int)
  | insertPeriodActors (rates : RateCache) (protocol : Protocol) (journal : Journal)
  | connectSources (rates : RateCache) (protocol : Protocol) (journal : Journal)
      (table : Repetitions)

namespace Event

/-- Carry out an event on a graph. -/
def perform : Event → Action Graph Answer
  | operation op => op.perform
  | removeActor a => do
    match (← get).actors.find? (·.id == a.id) with
    | some a => modify (·.removeActor a)
    | none => throw .notListed
    return .done
  | insertChannelBetween source target sourceRate targetRate initialTokens tokenSize =>
    Answer.channel <$>
      Graph.insertChannelBetween source target sourceRate targetRate initialTokens tokenSize
  | insertPeriodActors rates protocol journal => do
    Workspace.insertPeriodActors.within (⟨·, rates, protocol, journal⟩) fun _ w => w.graph
    return .done
  | connectSources rates protocol journal table =>
    Answer.channels <$>
      (Workspace.connectSources table).within (⟨·, rates, protocol, journal⟩) fun _ w => w.graph

/-- Carry out an event on the tables of a graph. The record of an actor is the one in the arena, if
its handle is in use, and else it is what was handed out. -/
def performStored : Event → Action Store Answer
  | operation op => op.performStored
  | removeActor a => do
    Store.removeActor (((← get).actors.find? (·.id == a.id)).getD a)
    return .done
  | insertChannelBetween source target sourceRate targetRate initialTokens tokenSize =>
    Answer.channel <$>
      Store.insertChannelBetween source target sourceRate targetRate initialTokens tokenSize
  | insertPeriodActors _ protocol journal => do
    StoredWorkspace.insertPeriodActors.within (⟨·, protocol, journal⟩) fun _ w => w.store
    return .done
  | connectSources _ protocol journal table =>
    Answer.channels <$>
      (StoredWorkspace.connectSources table).within (⟨·, protocol, journal⟩) fun _ w => w.store

end Event

/-- What a history leaves of a graph. -/
def replay (g : Graph) (events : List Event) : Graph :=
  events.foldl (fun g event => event.perform.after g) g

/-- The results of the events of a history, one after the other. -/
def answers (g : Graph) : List Event → List (Except Failure Answer)
  | [] => []
  | event :: events => event.perform.outcome g :: answers (event.perform.after g) events

namespace Store

/-- What a history leaves of the tables of a graph. -/
def replay (s : Store) (events : List Event) : Store :=
  events.foldl (fun s event => event.performStored.after s) s

/-- The results of the events of a history on the tables. -/
def answers (s : Store) : List Event → List (Except Failure Answer)
  | [] => []
  | event :: events => event.performStored.outcome s :: answers (event.performStored.after s) events

end Store

section Stored

private theorem matches_removeActor_stored (a : Actor) :
    Matches Stored (Event.removeActor a).perform (Event.removeActor a).performStored := by
  refine matches_read_stored fun g hg => ?_
  have hactors : g.store.actors = g.actors := rfl
  rw [hactors]
  cases hfound : g.actors.find? (·.id == a.id) with
  | some b =>
    rw [Option.getD_some, bind_of_ok (hg.store_removeActor (List.mem_of_find?_eq_some hfound))]
    exact .ok _ (.intro (hg.withoutActor b))
  | none =>
    have hgone : ∀ b ∈ g.actors, b.id ≠ a.id := by
      simpa using List.find?_eq_none.mp hfound
    rw [Option.getD_none, bind_of_error (hg.store_removeActor_of_gone hgone)]
    exact .error _ (.intro hg)

/-- An event does to the tables of a graph what it does to the graph. -/
theorem matches_event_stored (event : Event) :
    Matches Stored event.perform event.performStored := by
  cases event with
  | operation op => exact matches_performStored op
  | removeActor a => exact matches_removeActor_stored a
  | insertChannelBetween => exact matches_store_insertChannelBetween.map _
  | insertPeriodActors rates protocol journal =>
    refine Matches.bind (StoredWorkspace.matches_insertPeriodActors.within ?_ ?_) fun _ =>
      matches_pure _
    · rintro g _ ⟨hg⟩
      exact .intro hg
    · rintro g _ w _ - ⟨hg⟩
      exact .intro hg
  | connectSources rates protocol journal table =>
    refine ((StoredWorkspace.matches_connectSources table).within ?_ ?_).map _
    · rintro g _ ⟨hg⟩
      exact .intro hg
    · rintro g _ w _ - ⟨hg⟩
      exact .intro hg

/-- A history goes the same way on the tables of a graph as on the graph. -/
theorem Stored.replay {g : Graph} {s : Store} (h : Stored g s) (events : List Event) :
    s.answers events = g.answers events ∧ Stored (g.replay events) (s.replay events) := by
  induction events generalizing g s with
  | nil => exact ⟨rfl, h⟩
  | cons event events ih =>
    have hmatches := matches_event_stored event
    obtain ⟨hanswers, hafter⟩ := ih (hmatches.after h)
    exact ⟨congrArg₂ List.cons (hmatches.outcome_eq h) hanswers, hafter⟩

end Stored

variable {g g' : Graph}

theorem lasting_changes {origin : Graph} : Lasting (Changes origin) :=
  fun g op hg => op.perform_changes g hg

/-- An event makes some steps, each of which was allowed when it was made. -/
theorem Event.changes (event : Event) (g : Graph) : Changes g (event.perform.after g) := by
  cases event with
  | operation op => exact op.changes g
  | removeActor a =>
    refine keeps_get_bind (P := Changes g) (fun g hg => ?_) g .refl
    dsimp only
    cases g.actors.find? (·.id == a.id) with
    | some a => exact hg.tail (.removeActor a)
    | none => exact hg
  | insertChannelBetween => exact insertChannelBetween_changes.map _ g .refl
  | insertPeriodActors rates protocol journal =>
    refine after_bind (P := Changes g) ?_ fun _ => keeps_pure _
    rw [after_within]
    exact Workspace.keeps_insertPeriodActors lasting_changes ⟨g, rates, protocol, journal⟩ .refl
  | connectSources rates protocol journal table =>
    rw [Event.perform, after_map, after_within]
    exact Workspace.keeps_connectSources (P := fun h _ => Changes g h)
      (fun _ => lasting_changes.wirable) (fun _ _ => id) ⟨g, rates, protocol, journal⟩ .refl

private theorem replay_changes (g : Graph) (events : List Event) : Changes g (g.replay events) := by
  induction events generalizing g with
  | nil => exact .refl
  | cons event events ih => exact (event.changes g).trans (ih (event.perform.after g))

/-- Steps keep a graph in order, and what they bring has handles that are new. -/
theorem Changes.ordered (h : Changes g g') (hg : g.WellFormed) (ho : g.InOrder) :
    g'.WellFormed ∧ g'.InOrder ∧ g.store.Follows g'.store := by
  refine h.keeps (P := fun g' => g'.WellFormed ∧ g'.InOrder ∧ g.store.Follows g'.store) ?_
    ⟨hg, ho, .refl g.store⟩
  rintro g₁ g₂ hstep ⟨hwell, horder, hfollows⟩
  exact ⟨hstep.wellFormed hwell, hstep.inOrder hwell horder,
    hfollows.trans (hstep.follows hwell)⟩

/-- Every history of events, refused ones included, has the same answers on the stored tables as on
the graph and leaves the tables of the graph that it leaves. The tables are coherent after it.
However the history goes on, `Store.Follows` holds, and no handle that was given out is given to
anything else, also when nothing has it any more. -/
theorem replay_coherent (name : Option String) (earlier later : List Event) :
    Store.answers (.empty name) earlier = answers (.empty name) earlier ∧
      Store.replay (.empty name) earlier = (replay (.empty name) earlier).store ∧
      (Store.replay (.empty name) earlier).Coherent ∧
      Store.Follows (Store.replay (.empty name) earlier)
        (Store.replay (Store.replay (.empty name) earlier) later) ∧
      ∀ handle < (Store.replay (.empty name) earlier).nextHandle,
        handle ∉ (Store.replay (.empty name) earlier).handles →
          handle ∉ (Store.replay (Store.replay (.empty name) earlier) later).handles := by
  have hempty : Stored (.empty name) (.empty name) := .intro (.empty name)
  obtain ⟨hanswers, hearlier⟩ := hempty.replay earlier
  obtain ⟨-, hlater⟩ := hearlier.replay later
  obtain ⟨hwell, horder, -⟩ :=
    (replay_changes (.empty name) earlier).ordered (.empty name) (.empty name)
  obtain ⟨-, -, hfollows⟩ := (replay_changes _ later).ordered hwell horder
  generalize Store.replay (.empty name) earlier = s at hanswers hearlier hlater ⊢
  generalize s.replay later = s' at hlater ⊢
  cases hearlier
  cases hlater
  exact ⟨hanswers, rfl, hwell.coherent_store horder, hfollows,
    fun _ hlt hgone => hfollows.notMem_handles hlt hgone⟩

end Dataflow.Graph
