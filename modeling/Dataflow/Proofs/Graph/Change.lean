import Dataflow.Proofs.Except
import Dataflow.Proofs.Graph.Operation
import Mathlib.Logic.Relation

namespace Dataflow

/-- An actor of a graph, with a port of its type that has the given direction. -/
structure Endpoint.FitsIn (e : Endpoint) (g : Graph) (direction : Direction) : Prop where
  actor_mem : e.actor ∈ g.actors
  port_mem : e.port ∈ g.ports
  type_eq : e.port.type = e.actor.type
  direction_eq : e.port.direction = direction

theorem Endpoint.FitsIn.mono {e : Endpoint} {g g' : Graph} {direction : Direction}
    (h : e.FitsIn g direction) (hactors : g.actors ⊆ g'.actors) (hports : g.ports ⊆ g'.ports) :
    e.FitsIn g' direction :=
  ⟨hactors h.actor_mem, hports h.port_mem, h.type_eq, h.direction_eq⟩

namespace Graph

open Dataflow.Action

theorem actorNamed_eq_ok {g : Graph} {name : String} {a : Actor}
    (h : g.actorNamed name = .ok a) : a ∈ g.actors ∧ a.name = name := by
  unfold actorNamed at h
  split at h
  · rename_i found hfound
    cases h
    exact ⟨List.mem_of_find?_eq_some hfound, by simpa using List.find?_some hfound⟩
  · cases h

theorem portNamed_eq_ok {g : Graph} {type name : String} {p : Port}
    (h : g.portNamed type name = .ok p) : p ∈ g.ports ∧ p.type = type ∧ p.name = name := by
  unfold portNamed at h
  split at h
  · rename_i found hfound
    cases h
    exact ⟨List.mem_of_find?_eq_some hfound, by simpa using List.find?_some hfound⟩
  · cases h

theorem endpoint_eq_ok {g : Graph} {place : String × String} {direction : Direction}
    {e : Endpoint} (h : g.endpoint place direction = .ok e) : e.FitsIn g direction := by
  unfold endpoint at h
  cases hactor : g.actorNamed place.1 with
  | error _ => simp [hactor, bind, Except.bind] at h
  | ok a =>
    cases hport : g.portNamed a.type place.2 with
    | error _ => simp [hactor, hport, bind, Except.bind] at h
    | ok p =>
      simp only [hactor, hport, bind, Except.bind] at h
      split at h
      · rename_i hdirection
        cases h
        have hp := portNamed_eq_ok hport
        exact ⟨(actorNamed_eq_ok hactor).1, hp.1, hp.2.1, hdirection⟩
      · cases h

theorem mem_known {known : List String} {type other : String} :
    other ∈ (if known.contains type then known else known ++ [type]) ↔
      other ∈ known ∨ other = type := by
  by_cases hin : type ∈ known
  · rw [if_pos (List.contains_iff_mem.mpr hin)]
    exact ⟨.inl, fun h => h.elim id fun h => h ▸ hin⟩
  · rw [if_neg (mt List.contains_iff_mem.mp hin), List.mem_append, List.mem_singleton]

theorem foldl_restoreActor (actors : List Actor) (copy : Graph) :
    ∃ types, actors.foldl restoreActor copy = { copy with actors := copy.actors ++ actors, types } ∧
      ∀ type, type ∈ types ↔ type ∈ copy.types ∨ ∃ a ∈ actors, a.type = type := by
  induction actors generalizing copy with
  | nil => exact ⟨copy.types, by simp, by simp⟩
  | cons a actors ih =>
    obtain ⟨types, hfold, htypes⟩ := ih (copy.restoreActor a)
    refine ⟨types, ?_, fun type => ?_⟩
    · rw [List.foldl_cons, hfold]
      simp [restoreActor]
    · rw [htypes, restoreActor, mem_known]
      simp [or_assoc, eq_comm]

private theorem restoreChannel_eq_ok {g copy next : Graph} {c : Channel}
    (h : g.restoreChannel copy c = .ok next) :
    ∃ channel, next =
      { copy with channels := copy.channels ++ [channel], linked := copy.linked ++ [channel] } := by
  unfold restoreChannel at h
  split at h
  · cases h
  · obtain ⟨source, -, h⟩ := Except.bind_eq_ok_iff.mp h
    obtain ⟨target, -, h⟩ := Except.bind_eq_ok_iff.mp h
    cases h
    exact ⟨_, rfl⟩

private theorem foldlM_restoreChannel_eq_ok {g copy next : Graph} {channels : List Channel}
    (h : channels.foldlM g.restoreChannel copy = .ok next) :
    ∃ added, next =
      { copy with channels := copy.channels ++ added, linked := copy.linked ++ added } := by
  induction channels generalizing copy with
  | nil =>
    cases h
    exact ⟨[], by simp⟩
  | cons c channels ih =>
    rw [List.foldlM_cons] at h
    obtain ⟨between, hstep, hrest⟩ := Except.bind_eq_ok_iff.mp h
    obtain ⟨channel, rfl⟩ := restoreChannel_eq_ok hstep
    obtain ⟨added, rfl⟩ := ih hrest
    exact ⟨channel :: added, by simp⟩

/-- A copy may differ in the types that it knows and in its channels. -/
theorem clone_eq_ok {g copy : Graph} (h : g.clone = .ok copy) :
    ∃ types channels, copy = { g with types, channels, linked := channels } := by
  obtain ⟨types, hfold, -⟩ := foldl_restoreActor g.actors g.bare
  rw [clone, hfold] at h
  obtain ⟨added, rfl⟩ := foldlM_restoreChannel_eq_ok h
  exact ⟨types, added, rfl⟩

/-- A step of an operation, with what is known when it is made. -/
inductive Change (g : Graph) : Graph → Prop
  | useHandle : Change g { g with nextHandle := g.nextHandle + 1 }
  | addActor {a : Actor} (hid : a.id = g.nextHandle) (hname : g.hasActor a.name = false) :
    Change g
      { g with
        actors := g.actors ++ [a]
        types := if g.types.contains a.type then g.types else g.types ++ [a.type]
        nextHandle := g.nextHandle + 1 }
  | addPort {p : Port} (hid : p.id = g.nextHandle) (hname : g.hasPort p.type p.name = false)
    (rate : Option String) :
    Change g
      { g with
        ports := g.ports ++ [p]
        rates := g.rates ++ rate.toList.map (p.id, ·)
        nextHandle := g.nextHandle + 1 }
  | setRate {p : Port} (hp : p ∈ g.ports) (hnone : g.rateText? p = none) (rate : String) :
    Change g { g with rates := g.rates ++ [(p.id, rate)] }
  | addChannel {c : Channel} (hid : c.id = g.nextHandle) (hsource : c.source.FitsIn g .output)
    (htarget : c.target.FitsIn g .input) :
    Change g
      { g with
        channels := g.channels ++ [c]
        linked := g.linked ++ [c]
        nextHandle := g.nextHandle + 1 }
  | addModifier {m : Modifier}
    (hnone : g.modifiers.find? (·.parameter == m.parameter) = none) :
    Change g { g with modifiers := g.modifiers ++ [m] }
  | removeChannel (id : Handle) : Change g (g.removeChannel id)
  | removeActor (a : Actor) : Change g (g.removeActor a)
  | copy {copy : Graph} (h : g.clone = .ok copy) : Change g copy

/-- Any number of steps. -/
abbrev Changes : Graph → Graph → Prop :=
  Relation.ReflTransGen Change

theorem Changes.keeps {P : Graph → Prop} {g g' : Graph} (h : Changes g g')
    (hstep : ∀ {g g'}, Change g g' → P g → P g') (hg : P g) : P g' := by
  induction h with
  | refl => exact hg
  | tail _ hchange ih => exact hstep hchange ih

section Steps

variable {origin : Graph}

theorem addActor_changes {name type : String} {execTime : Int} {auto : Bool} :
    (addActor name type execTime auto).Keeps (Changes origin) := by
  intro g hg
  unfold after
  rw [addActor_eq]
  cases hname : g.hasActor name with
  | true => exact hg
  | false => exact hg.tail (.addActor (a := ⟨g.nextHandle, name, type, execTime, auto⟩) rfl hname)

theorem addPort_changes {type name : String} {direction : Direction} {rate : Option String} :
    (addPort type name direction rate).Keeps (Changes origin) := by
  intro g hg
  unfold after
  rw [addPort_eq]
  cases hname : g.hasPort type name with
  | true => exact hg
  | false => exact hg.tail (.addPort (p := ⟨g.nextHandle, type, name, direction⟩) rfl hname rate)

theorem setRate_changes {g : Graph} (hg : Changes origin g) {p : Port} (hp : p ∈ g.ports)
    (rate : String) : Changes origin ((setRate p rate).after g) := by
  unfold after
  rw [setRate_eq]
  cases hrate : g.rateText? p with
  | some text => exact hg
  | none => exact hg.tail (.setRate hp hrate rate)

theorem addModifier_changes {m : Modifier} : (addModifier m).Keeps (Changes origin) := by
  intro g hg
  unfold after
  rw [addModifier_eq]
  cases hfind : g.modifiers.find? (·.parameter == m.parameter) with
  | some present => exact hg
  | none => exact hg.tail (.addModifier hfind)

theorem addChannel_changes {source target : String × String} {spec : ChannelSpec} :
    (addChannel source target spec).Keeps (Changes origin) := by
  intro g hg
  unfold after
  rw [addChannel_eq]
  by_cases htokens : spec.initialTokens < 0
  · simpa only [htokens, if_true] using hg
  · simp only [htokens, if_false]
    cases hsource : g.endpoint source .output with
    | error e => exact hg.tail .useHandle
    | ok a =>
      cases htarget : g.endpoint target .input with
      | error e => exact hg.tail .useHandle
      | ok b =>
        exact hg.tail (.addChannel (c := ⟨g.nextHandle, _, _, _, _, a, b⟩) rfl
          (endpoint_eq_ok hsource) (endpoint_eq_ok htarget))

private theorem ensurePort_changes {type name : String} {direction : Direction} {rate : String} :
    (ensurePort type name direction rate).Keeps (Changes origin) := by
  unfold ensurePort
  apply keeps_get_bind
  intro g hg
  split
  · exact addPort_changes.bind (fun _ => keeps_pure _) g hg
  · exact hg

theorem insertChannelBetween_changes {source target : Actor} {sourceRate targetRate : String}
    {initialTokens tokenSize : Int} :
    (insertChannelBetween source target sourceRate targetRate initialTokens tokenSize).Keeps
      (Changes origin) := by
  unfold insertChannelBetween
  apply keeps_get_bind
  intro g hg
  exact ensurePort_changes.bind
    (fun _ => ensurePort_changes.bind fun _ => addChannel_changes) g hg

theorem Operation.perform_changes (op : Operation) : op.perform.Keeps (Changes origin) := by
  cases op with
  | addActor name type execTime auto => exact addActor_changes.map _
  | addPort type name direction rate => exact addPort_changes.map _
  | addChannel source target spec => exact addChannel_changes.map _
  | addModifier m => exact addModifier_changes.bind fun _ => keeps_pure _
  | removeChannel id =>
    exact Keeps.bind (keeps_modify fun _ hg => hg.tail (.removeChannel id)) fun _ => keeps_pure _
  | clone =>
    apply keeps_get_bind
    intro g hg
    refine after_ofExcept_bind hg fun copy hclone => ?_
    exact after_bind (hg.tail (.copy hclone)) fun _ => keeps_pure _
  | removeActor name =>
    apply keeps_get_bind
    intro g hg
    refine (keeps_ofExcept _).bind (fun a => ?_) g hg
    exact Keeps.bind (keeps_modify fun _ hg => hg.tail (.removeActor a)) fun _ => keeps_pure _
  | insertChannelBetween source target sourceRate targetRate initialTokens tokenSize =>
    apply keeps_get_bind
    intro g hg
    refine (keeps_ofExcept _).bind (fun a => ?_) g hg
    apply keeps_get_bind
    intro g hg
    exact (keeps_ofExcept _).bind (fun b => insertChannelBetween_changes.map _) g hg
  | setRate type name rate =>
    apply keeps_get_bind
    intro g hg
    refine after_ofExcept_bind hg fun p hport => ?_
    exact after_bind (setRate_changes hg (portNamed_eq_ok hport).1 rate) fun _ => keeps_pure _

/-- What an operation leaves of a graph is what some steps make of it. -/
theorem Operation.changes (op : Operation) (g : Graph) : Changes g (op.perform.after g) :=
  op.perform_changes g .refl

end Steps

end Graph

end Dataflow
