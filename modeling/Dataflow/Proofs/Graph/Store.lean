import Dataflow.Proofs.Graph.Additions
import Dataflow.Proofs.Matching

namespace Dataflow.Graph

open Dataflow.Action

namespace Store

variable (s : Store)

private theorem addActor_eq (name type : String) (execTime : Int) (auto : Bool) :
    addActor name type execTime auto s =
      if (s.named name).isSome then .error (.duplicateActor name) s
      else .ok ⟨s.nextHandle, name, type, execTime, auto⟩
        { s with
          toTables := s.toTables.withActor ⟨s.nextHandle, name, type, execTime, auto⟩
          nextHandle := s.nextHandle + 1 } := by
  rw [addActor, get_bind_apply]
  cases (s.named name).isSome <;> rfl

private theorem addPort_eq (type name : String) (direction : Direction) (rate : Option String) :
    addPort type name direction rate s =
      if (s.keyed type name).isSome then .error (.duplicatePort type name) s
      else .ok ⟨s.nextHandle, type, name, direction⟩
        { s with
          toTables := s.toTables.withPort ⟨s.nextHandle, type, name, direction⟩ rate
          nextHandle := s.nextHandle + 1 } := by
  rw [addPort, get_bind_apply]
  cases (s.keyed type name).isSome <;> rfl

private theorem setRate_eq (p : Port) (rate : String) :
    setRate p rate s =
      if (s.rates p.id).isSome then .error (.rateFixed p.text) s
      else .ok () { s with toTables := s.toTables.withRate p rate } := by
  rw [setRate, get_bind_apply]
  cases (s.rates p.id).isSome <;> rfl

private theorem freshHandle_bind_apply {β : Type} (next : Handle → Action Store β) :
    (freshHandle >>= next) s = next s.nextHandle { s with nextHandle := s.nextHandle + 1 } := rfl

private theorem addChannel_eq (source target : String × String) (spec : ChannelSpec) :
    addChannel source target spec s =
      if spec.initialTokens < 0 then
        .error (.negativeTokens spec.initialTokens source target) s
      else
        match s.endpoint source .output, s.endpoint target .input with
        | .ok a, .ok b =>
          let channel : Channel :=
            ⟨s.nextHandle, spec.name, spec.initialTokens.toNat, spec.tokenSize, spec.auto, a, b⟩
          .ok channel
            { s with
              toTables := s.toTables.withChannel channel
              nextHandle := s.nextHandle + 1 }
        | .error e, _ => .error e { s with nextHandle := s.nextHandle + 1 }
        | .ok _, .error e => .error e { s with nextHandle := s.nextHandle + 1 } := by
  unfold addChannel
  by_cases h : spec.initialTokens < 0
  · simp only [h, if_true]
    rfl
  · simp only [h, if_false]
    rw [freshHandle_bind_apply, get_bind_apply, lift_bind_apply]
    cases s.endpoint source .output with
    | error e => rfl
    | ok a =>
      dsimp only
      rw [get_bind_apply, lift_bind_apply]
      cases s.endpoint target .input <;> rfl

private theorem addModifier_eq (m : Modifier) :
    addModifier m s =
      match s.modifiers.find? (·.parameter == m.parameter) with
      | some present => .error (.duplicateModifier m.parameter present.text) s
      | none => .ok () { s with modifiers := s.modifiers ++ [m] } := by
  rw [addModifier, get_bind_apply]
  cases s.modifiers.find? (·.parameter == m.parameter) <;> rfl

private theorem attempt_eq_ok {s : Store} {change : Tables → Option Tables} {t : Tables}
    (h : change s.toTables = some t) : attempt change s = .ok () { s with toTables := t } := by
  simp only [attempt, h]

private theorem attempt_eq_error {s : Store} {change : Tables → Option Tables}
    (h : change s.toTables = none) : attempt change s = .error .notListed s := by
  simp only [attempt, h]

/-- A channel is removed step by step, and each step finds what it takes off. -/
theorem removeChannel_eq_ok {s : Store} {c : Channel} {t : Tables}
    (h : s.toTables.removeChannel c = some t) :
    removeChannel c s = .ok () { s with toTables := t } := by
  unfold Tables.removeChannel Tables.unlink at h
  rw [removeChannel, get_bind_apply]
  cases hbound : s.bound c.id with
  | false =>
    rw [if_neg (by simp [hbound])] at h
    cases h
    rfl
  | true =>
    rw [if_pos hbound] at h
    simp only [Option.bind_eq_bind, Option.bind_eq_some_iff, Option.pure_def,
      Option.some.injEq] at h
    obtain ⟨_, ⟨t₁, houtput, t₂, hinput, rfl⟩, rfl⟩ := h
    rw [if_pos rfl, bind_of_ok (attempt_eq_ok houtput)]
    exact bind_of_ok (attempt_eq_ok hinput)

private theorem forM_removeChannel_eq_ok {s : Store} {channels : List Channel} {t : Tables}
    (h : channels.foldlM Tables.removeChannel s.toTables = some t) :
    channels.forM removeChannel s = .ok () { s with toTables := t } := by
  induction channels generalizing s with
  | nil =>
    cases h
    rfl
  | cons c channels ih =>
    rw [List.foldlM_cons] at h
    obtain ⟨t₁, hfirst, hrest⟩ := Option.bind_eq_some_iff.mp h
    show (removeChannel c >>= fun _ => channels.forM removeChannel) s = _
    rw [bind_of_ok (removeChannel_eq_ok hfirst)]
    exact ih hrest

private theorem removeActor_eq_ok {s : Store} {a : Actor} {t : Tables}
    (h : s.toTables.removeActor a = some t) :
    removeActor a s = .ok () { s with toTables := t } := by
  simp only [Tables.removeActor, Tables.dismiss, Option.bind_eq_bind,
    Option.bind_eq_some_iff] at h
  obtain ⟨t₁, hchannels, t₂, htype, t₃, hname, harena⟩ := h
  rw [removeActor, get_bind_apply, bind_of_ok (forM_removeChannel_eq_ok hchannels),
    bind_of_ok (attempt_eq_ok htype), bind_of_ok (attempt_eq_ok hname)]
  exact attempt_eq_ok harena

end Store

/-- A well-formed graph and the store that agrees with it. -/
inductive Stored : Graph → Store → Prop
  | intro {g : Graph} (hg : g.WellFormed) : Stored g g.store

private theorem WellFormed.endsAlike_stored {g : Graph} (hg : g.WellFormed) {α : Type}
    {action : Action Graph α} {action' : Action Store α} (hafter : Changes g (action.after g))
    (h : EndsAlike (fun g s => s = g.store) (action g) (action' g.store)) :
    EndsAlike Stored (action g) (action' g.store) := by
  have hwell := hafter.wellFormed hg
  unfold after at hwell
  generalize action g = ending at h hwell
  generalize action' g.store = ending' at h
  cases h with
  | ok a hs => exact hs ▸ .ok a (.intro hwell)
  | error e hs => exact hs ▸ .error e (.intro hwell)

/-- An action on stores does what one on graphs does, if it does so from the store of any well-formed
graph, and what is left of the graph is left by steps. -/
theorem matches_stored {α : Type} {action : Action Graph α} {action' : Action Store α}
    (hkeeps : ∀ origin, action.Keeps (Changes origin))
    (h : ∀ g, g.WellFormed → EndsAlike (fun g s => s = g.store) (action g) (action' g.store)) :
    Matches Stored action action' := by
  rintro g _ ⟨hg⟩
  exact hg.endsAlike_stored (hkeeps g g .refl) (h g hg)

/-- What follows the reading of a graph and of its store may rely on what they are. -/
theorem matches_read_stored {α : Type} {next : Graph → Action Graph α}
    {next' : Store → Action Store α}
    (h : ∀ g, g.WellFormed → EndsAlike Stored (next g g) (next' g.store g.store)) :
    Matches Stored (get >>= next) (get >>= next') := by
  rintro g _ ⟨hg⟩
  exact h g hg

section Operations

variable {type name : String} {direction : Direction}

theorem matches_store_addActor {execTime : Int} {auto : Bool} :
    Matches Stored (addActor name type execTime auto) (Store.addActor name type execTime auto) := by
  refine matches_stored (fun _ => addActor_changes) fun g hg => ?_
  rw [addActor_eq, Store.addActor_eq]
  have hnamed : (g.store.named name).isSome = g.hasActor name := isSome_tables_named
  rw [hnamed]
  cases hname : g.hasActor name with
  | true => exact .error _ rfl
  | false =>
    have hid : g.nextHandle ∉ g.actors.map (·.id) :=
      fun hmem => Nat.lt_irrefl _ (hg.actor_id_lt hmem)
    have hlinks : ∀ c ∈ g.linked, ∀ direction,
        (c.endpoint direction).actor.id ≠ g.nextHandle := by
      intro c hc direction heq
      have hmem := (hg.joins c (hg.linked_eq ▸ hc) direction).actor_mem
      exact hid (heq ▸ List.mem_map_of_mem hmem)
    have htables : g.tables.withActor ⟨g.nextHandle, name, type, execTime, auto⟩ = _ :=
      tables_withActor hid hname hg.types_known hlinks
    exact .ok _ (congrArg (Store.mk · (g.nextHandle + 1)) htables)

theorem matches_store_addPort {rate : Option String} :
    Matches Stored (addPort type name direction rate)
      (Store.addPort type name direction rate) := by
  refine matches_stored (fun _ => addPort_changes) fun g hg => ?_
  rw [addPort_eq, Store.addPort_eq]
  have hkeyed : (g.store.keyed type name).isSome = g.hasPort type name := isSome_tables_keyed
  rw [hkeyed]
  cases hname : g.hasPort type name with
  | true => exact .error _ rfl
  | false =>
    have hid : g.nextHandle ∉ g.ports.map (·.id) :=
      fun hmem => Nat.lt_irrefl _ (hg.port_id_lt hmem)
    have htables : g.tables.withPort ⟨g.nextHandle, type, name, direction⟩ rate = _ :=
      tables_withPort hid hname (hg.lookup_rates_eq_none hid) rate
    exact .ok _ (congrArg (Store.mk · (g.nextHandle + 1)) htables)

private theorem matches_store_addModifier {m : Modifier} :
    Matches Stored (addModifier m) (Store.addModifier m) := by
  refine matches_stored (fun _ => addModifier_changes) fun g hg => ?_
  rw [addModifier_eq, Store.addModifier_eq]
  have hmodifiers : g.store.modifiers = g.modifiers := rfl
  rw [hmodifiers]
  cases g.modifiers.find? (·.parameter == m.parameter) with
  | some present => exact .error _ rfl
  | none => exact .ok _ rfl

theorem matches_store_addChannel {source target : String × String} {spec : ChannelSpec} :
    Matches Stored (addChannel source target spec) (Store.addChannel source target spec) := by
  refine matches_stored (fun _ => addChannel_changes) fun g hg => ?_
  rw [addChannel_eq, Store.addChannel_eq]
  have hends : g.store.endpoint = g.endpoint := by
    funext place direction
    exact hg.tables_endpoint
  rw [hends]
  refine .ite (.error _ rfl) ?_
  cases g.endpoint source .output with
  | error e => exact .error e rfl
  | ok a =>
    cases g.endpoint target .input with
    | error e => exact .error e rfl
    | ok b =>
      have hid : g.nextHandle ∉ g.channels.map (·.id) :=
        fun hmem => Nat.lt_irrefl _ (hg.channel_id_lt hmem)
      exact .ok _ (congrArg (Store.mk · (g.nextHandle + 1)) (tables_withChannel hid))

theorem matches_store_ensurePort {rate : String} :
    Matches Stored (ensurePort type name direction rate)
      (Store.ensurePort type name direction rate) := by
  refine matches_read_stored fun g hg => ?_
  have hkeyed : (g.store.keyed type name).isSome = g.hasPort type name := isSome_tables_keyed
  rw [hkeyed]
  exact Matches.ite (matches_store_addPort.bind fun _ => matches_pure _) (matches_pure _) _ _
    (.intro hg)

theorem matches_store_insertChannelBetween {source target : Actor}
    {sourceRate targetRate : String} {initialTokens tokenSize : Int} :
    Matches Stored
      (insertChannelBetween source target sourceRate targetRate initialTokens tokenSize)
      (Store.insertChannelBetween source target sourceRate targetRate initialTokens tokenSize) := by
  refine matches_read_stored fun g hg => ?_
  have hchannels (a : Actor) : g.store.channelsOf a = g.channelsOf a := hg.tables_channelsOf a
  rw [hchannels, hchannels]
  exact matches_store_ensurePort.bind (fun _ => matches_store_ensurePort.bind fun _ =>
    matches_store_addChannel) _ _ (.intro hg)

variable {g : Graph} (hg : g.WellFormed)
include hg

private theorem WellFormed.store_setRate {p : Port} (hp : p ∈ g.ports) (rate : String) :
    EndsAlike Stored (setRate p rate g) (Store.setRate p rate g.store) := by
  refine hg.endsAlike_stored (setRate_changes .refl hp rate) ?_
  rw [setRate_eq, Store.setRate_eq]
  have hrate : g.store.rates p.id = g.rateText? p := rfl
  rw [hrate]
  cases hnone : g.rateText? p with
  | some text => exact .error _ rfl
  | none => exact .ok _ (congrArg (Store.mk · g.nextHandle) (tables_withRate hnone rate))

private theorem WellFormed.store_removeChannel {c : Channel} (hc : g.Identifies c) :
    Store.removeChannel c g.store = .ok () (g.removeChannel c.id).store :=
  Store.removeChannel_eq_ok (hg.tables_removeChannel hc)

private theorem WellFormed.store_removeChannelAt (id : Handle) :
    Store.removeChannelAt id g.store = .ok () (g.removeChannel id).store := by
  rw [Store.removeChannelAt, get_bind_apply]
  have hchannels : g.store.channels = g.channels := rfl
  rw [hchannels]
  cases hfound : g.channels.find? (·.id == id) with
  | some c =>
    obtain rfl : c.id = id := by simpa using List.find?_some hfound
    exact hg.store_removeChannel (hg.identifies (List.mem_of_find?_eq_some hfound))
  | none =>
    have hgone : ∀ c ∈ g.channels, c.id ≠ id := by
      simpa using List.find?_eq_none.mp hfound
    have hself : g.removeChannel id = g := by
      have hlinked : g.linked.filter (·.id != id) = g.linked := by
        rw [hg.linked_eq, filter_id_ne_eq_self hgone]
      rw [removeChannel_eq, filter_id_ne_eq_self hgone, hlinked]
    rw [hself]
    rfl

theorem WellFormed.store_removeActor {a : Actor} (ha : a ∈ g.actors) :
    Store.removeActor a g.store = .ok () (g.removeActor a).store := by
  rw [Store.removeActor_eq_ok (s := g.store) (hg.tables_removeActor ha), hg.removeActor_eq]
  rfl

/-- An actor that is gone has no channels, and is missed among those of its type. -/
theorem WellFormed.store_removeActor_of_gone {a : Actor} (ha : ∀ b ∈ g.actors, b.id ≠ a.id) :
    Store.removeActor a g.store = .error .notListed g.store := by
  have hchannels : g.store.channelsOf a = [] := by
    refine (hg.tables_channelsOf a).trans (List.eq_nil_iff_forall_not_mem.mpr fun c hc => ?_)
    obtain ⟨hlinked, hends⟩ := g.mem_channelsOf.mp hc
    have hjoins := hg.joins c (hg.linked_eq ▸ hlinked)
    exact hends.elim (ha _ (hjoins .output).actor_mem) (ha _ (hjoins .input).actor_mem)
  have htype : g.tables.leaveType a = none := by
    have hmissed : a.id ∉ (g.instances a.type).map (·.id) := by
      intro hmem
      obtain ⟨b, hb, heq⟩ := List.mem_map.mp hmem
      exact ha b (List.mem_of_mem_filter hb) heq
    rw [Tables.leaveType, stored_instances]
    cases g.types.contains a.type with
    | true => simp [Tables.takeOff, hmissed]
    | false => rfl
  have hnothing : ([] : List Channel).forM Store.removeChannel g.store = .ok () g.store := rfl
  rw [Store.removeActor, get_bind_apply, hchannels, bind_of_ok hnothing]
  exact bind_of_error (Store.attempt_eq_error htype)

private theorem WellFormed.store_restart {copy : Graph} (h : g.clone = .ok copy) :
    Store.restart g.store = .ok () copy.store := by
  obtain ⟨types, channels, rfl⟩ := clone_eq_ok h
  have htables : g.store.clone = .ok _ := hg.tables_clone h
  rw [Store.restart, get_bind_apply, htables]
  rfl

end Operations

/-- Carry out an operation on the tables. -/
def Operation.performStored : Operation → Action Store Answer
  | addActor name type execTime auto => Answer.actor <$> Store.addActor name type execTime auto
  | removeActor name => do
    Store.removeActor (← (← get).actorNamed name)
    return .done
  | addPort type name direction rate => Answer.port <$> Store.addPort type name direction rate
  | setRate type name rate => do
    Store.setRate (← (← get).portNamed type name) rate
    return .done
  | addChannel source target spec => Answer.channel <$> Store.addChannel source target spec
  | insertChannelBetween source target sourceRate targetRate initialTokens tokenSize => do
    let source ← (← get).actorNamed source
    let target ← (← get).actorNamed target
    Answer.channel <$>
      Store.insertChannelBetween source target sourceRate targetRate initialTokens tokenSize
  | removeChannel id => do
    Store.removeChannelAt id
    return .done
  | addModifier m => do
    Store.addModifier m
    return .done
  | clone => do
    Store.restart
    return .done

/-- An operation on the tables of a graph has the same result as on the graph, and leaves the tables
of the graph that it leaves. -/
theorem matches_performStored (op : Operation) :
    Matches Stored op.perform op.performStored := by
  cases op with
  | addActor => exact matches_store_addActor.map _
  | addPort => exact matches_store_addPort.map _
  | addChannel => exact matches_store_addChannel.map _
  | addModifier => exact matches_store_addModifier.bind fun _ => matches_pure _
  | removeChannel id =>
    rintro g _ ⟨hg⟩
    show EndsAlike Stored _ ((Store.removeChannelAt id >>= fun _ => pure Answer.done) g.store)
    rw [bind_of_ok (hg.store_removeChannelAt id)]
    exact .ok _ (.intro (hg.withoutChannel id))
  | removeActor name =>
    refine matches_read_stored fun g hg => ?_
    have hnamed : g.store.actorNamed name = g.actorNamed name := hg.tables_actorNamed
    rw [hnamed, lift_bind_apply, lift_bind_apply]
    cases ha : g.actorNamed name with
    | error e => exact .error e (.intro hg)
    | ok a =>
      dsimp only
      rw [bind_of_ok (hg.store_removeActor (actorNamed_eq_ok ha).1)]
      exact .ok _ (.intro (hg.withoutActor a))
  | setRate type name rate =>
    refine matches_read_stored fun g hg => ?_
    have hnamed : g.store.portNamed type name = g.portNamed type name := hg.tables_portNamed
    rw [hnamed, lift_bind_apply, lift_bind_apply]
    cases hp : g.portNamed type name with
    | error e => exact .error e (.intro hg)
    | ok p => exact (hg.store_setRate (portNamed_eq_ok hp).1 rate).bind fun _ => matches_pure _
  | insertChannelBetween source target =>
    refine matches_read_stored fun g hg => ?_
    have hsource : g.store.actorNamed source = g.actorNamed source := hg.tables_actorNamed
    rw [hsource]
    refine (matches_lift (g.actorNamed source)).bind (fun a => ?_) _ _ (.intro hg)
    refine matches_read_stored fun g hg => ?_
    have htarget : g.store.actorNamed target = g.actorNamed target := hg.tables_actorNamed
    rw [htarget]
    exact (matches_lift (g.actorNamed target)).bind
      (fun b => matches_store_insertChannelBetween.map _) _ _ (.intro hg)
  | clone =>
    rintro g _ ⟨hg⟩
    obtain ⟨types, hclone, -⟩ := hg.clone_eq
    have hperform : Operation.clone.perform g = .ok .done { g with types } := by
      rw [Operation.perform, get_bind_apply, hclone]
      rfl
    have hstored : Operation.clone.performStored g.store = .ok .done { g with types }.store := by
      rw [Operation.performStored, bind_of_ok (hg.store_restart hclone)]
      rfl
    rw [hperform, hstored]
    exact .ok _ (.intro (hg.copy hclone))

end Dataflow.Graph
