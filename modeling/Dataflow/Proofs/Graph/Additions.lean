import Dataflow.Proofs.Except
import Dataflow.Proofs.Graph.Tables

namespace Dataflow.Graph

section Lookups

variable {g : Graph} {a : Actor} {p : Port} {type name : String}

theorem isSome_tables_named : (g.tables.named name).isSome = g.hasActor name := by
  rw [Bool.eq_iff_iff, tables, Option.isSome_map, List.find?_isSome, hasActor, List.any_eq_true]

theorem isSome_tables_keyed : (g.tables.keyed type name).isSome = g.hasPort type name := by
  rw [Bool.eq_iff_iff, tables, Option.isSome_map, List.find?_isSome, hasPort, List.any_eq_true]

theorem stored_instances : g.tables.instances type =
    if g.types.contains type then some ((g.instances type).map (·.id)) else none := rfl

/-- A type that is not known has no actors. -/
theorem getD_tables_instances (htypes : ∀ b ∈ g.actors, b.type ∈ g.types) :
    (g.tables.instances type).getD [] = (g.instances type).map (·.id) := by
  rw [stored_instances]
  split
  · rfl
  · rename_i hunknown
    have hnone : g.instances type = [] := by
      refine List.filter_eq_nil_iff.mpr fun b hb htype => hunknown ?_
      exact List.contains_iff_mem.mpr (eq_of_beq htype ▸ htypes b hb)
    rw [hnone]
    rfl

variable (hg : g.WellFormed)
include hg

private theorem WellFormed.tables_actorAt (ha : a ∈ g.actors) : g.tables.actorAt a.id = .ok a := by
  have hfound := (find?_eq_some_iff_of_key hg.nodup_actor_ids (t := (·.id == a.id)) (by simp)).mpr
    ⟨ha, rfl⟩
  simp only [Tables.actorAt, tables, hfound]

private theorem WellFormed.tables_portAt (hp : p ∈ g.ports) : g.tables.portAt p.id = .ok p := by
  have hfound := (find?_eq_some_iff_of_key hg.nodup_port_ids (t := (·.id == p.id)) (by simp)).mpr
    ⟨hp, rfl⟩
  simp only [Tables.portAt, tables, hfound]

/-- No name in the index leads to an actor that is gone. -/
theorem WellFormed.tables_actorNamed : g.tables.actorNamed name = g.actorNamed name := by
  have hnamed : g.tables.named name = (g.actors.find? (·.name == name)).map (·.id) := rfl
  rw [Tables.actorNamed, actorNamed, hnamed]
  cases hfound : g.actors.find? (·.name == name) with
  | none => rfl
  | some a => exact hg.tables_actorAt (List.mem_of_find?_eq_some hfound)

theorem WellFormed.tables_portNamed : g.tables.portNamed type name = g.portNamed type name := by
  have hkeyed : g.tables.keyed type name =
      (g.ports.find? fun p => p.type == type && p.name == name).map (·.id) := rfl
  rw [Tables.portNamed, portNamed, hkeyed]
  cases hfound : g.ports.find? fun p => p.type == type && p.name == name with
  | none => rfl
  | some p => exact hg.tables_portAt (List.mem_of_find?_eq_some hfound)

theorem WellFormed.tables_endpoint {place : String × String} {direction : Direction} :
    g.tables.endpoint place direction = g.endpoint place direction := by
  simp only [Tables.endpoint, endpoint, hg.tables_actorNamed, hg.tables_portNamed]

/-- No list of a type leads to an actor that is gone. -/
theorem WellFormed.tables_actorsOf : g.tables.actorsOf type = g.actorsOf type := by
  have hactors : ((g.instances type).map (·.id)).mapM g.tables.actorAt =
      .ok (g.instances type) := by
    have hactor : ∀ a ∈ g.instances type, (g.tables.actorAt ∘ (·.id)) a = .ok (id a) :=
      fun a ha => hg.tables_actorAt (List.mem_of_mem_filter ha)
    rw [List.mapM_map, Except.mapM_eq_ok hactor, List.map_id]
  rw [Tables.actorsOf, actorsOf, stored_instances]
  cases g.types.contains type with
  | true => exact hactors
  | false => rfl

end Lookups

section Updates

variable {g : Graph} {a : Actor} {p : Port} {c : Channel}

private theorem enter_of_fresh {α : Type} {id : α → Handle} {item : α} {items : List α}
    (h : id item ∉ items.map id) : Tables.enter id item items = items ++ [item] := by
  refine if_neg fun hany => h ?_
  obtain ⟨old, hold, hid⟩ := List.any_eq_true.mp hany
  exact eq_of_beq hid ▸ List.mem_map_of_mem hold

/-- An actor that is put into the tables has a handle and a name of its own, and no links yet. -/
theorem tables_withActor (hid : a.id ∉ g.actors.map (·.id)) (hname : g.hasActor a.name = false)
    (htypes : ∀ b ∈ g.actors, b.type ∈ g.types)
    (hlinks : ∀ c ∈ g.linked, ∀ direction, (c.endpoint direction).actor.id ≠ a.id) :
    g.tables.withActor a = (g.restoreActor a).tables := by
  refine Tables.ext rfl (enter_of_fresh hid) rfl rfl rfl rfl ?_ rfl ?_ ?_ rfl
  · funext name
    simp only [Tables.withActor, tables, restoreActor, List.find?_append]
    by_cases h : name = a.name
    · subst h
      have hnone : g.actors.find? (·.name == a.name) = none :=
        List.find?_eq_none.mpr (List.any_eq_false.mp hname)
      simp [hnone]
    · have hother : (a.name == name) = false := beq_false_of_ne (Ne.symm h)
      simp [h, hother]
  · funext type
    have hknown : (g.restoreActor a).types.contains type =
        (g.types.contains type || type == a.type) := by
      rw [Bool.eq_iff_iff, Bool.or_eq_true, List.contains_iff_mem, List.contains_iff_mem,
        beq_iff_eq]
      exact mem_known
    simp only [Tables.withActor, getD_tables_instances htypes]
    simp only [tables, hknown]
    by_cases h : type = a.type
    · subst h
      simp [restoreActor, instances]
    · have hother : (a.type == type) = false := beq_false_of_ne (Ne.symm h)
      simp [h, hother, restoreActor, instances]
  · funext id direction
    simp only [Tables.withActor, tables, restoreActor]
    split
    · rename_i h
      subst h
      have hnone : (g.linked.filter fun c => (c.endpoint direction).actor.id == a.id) = [] :=
        List.filter_eq_nil_iff.mpr fun c hc => by simpa using hlinks c hc direction
      rw [hnone]
      rfl
    · rfl

private theorem lookup_append_self {rates : List (Handle × String)} {id : Handle}
    (h : rates.lookup id = none) (rate : Option String) (other : Handle) :
    (rates ++ rate.toList.map (id, ·)).lookup other =
      if other = id then rate else rates.lookup other := by
  rw [List.lookup_append]
  by_cases hother : other = id
  · subst hother
    cases rate <;> simp [h]
  · have hfalse : (other == id) = false := beq_false_of_ne hother
    cases rate <;> simp [hother, hfalse, List.lookup_cons]

private theorem key_beq_eq_false {type name : String} (h : ¬(type = p.type ∧ name = p.name)) :
    (p.type == type && p.name == name) = false := by
  refine Bool.eq_false_iff.mpr fun heq => h ?_
  obtain ⟨htype, hname⟩ := Bool.and_eq_true_iff.mp heq
  exact ⟨(eq_of_beq htype).symm, (eq_of_beq hname).symm⟩

/-- A port that is put into the tables has a handle and a key of its own. -/
theorem tables_withPort (hid : p.id ∉ g.ports.map (·.id)) (hkey : g.hasPort p.type p.name = false)
    (hrate : g.rates.lookup p.id = none) (rate : Option String) :
    g.tables.withPort p rate =
      { g with
        ports := g.ports ++ [p]
        rates := g.rates ++ rate.toList.map (p.id, ·) }.tables := by
  refine Tables.ext rfl rfl (enter_of_fresh hid) ?_ rfl rfl rfl ?_ rfl rfl rfl
  · funext id
    exact (lookup_append_self hrate rate id).symm
  · funext type name
    simp only [Tables.withPort, tables, List.find?_append]
    split
    · rename_i h
      obtain ⟨rfl, rfl⟩ := h
      have hnone : g.ports.find? (fun q => q.type == p.type && q.name == p.name) = none :=
        List.find?_eq_none.mpr (List.any_eq_false.mp hkey)
      simp [hnone]
    · rename_i h
      simp [key_beq_eq_false h]

theorem tables_withRate (hrate : g.rates.lookup p.id = none) (rate : String) :
    g.tables.withRate p rate = { g with rates := g.rates ++ [(p.id, rate)] }.tables := by
  refine Tables.ext rfl rfl rfl ?_ rfl rfl rfl rfl rfl rfl rfl
  funext id
  exact (lookup_append_self hrate (some rate) id).symm

/-- A channel that is put into the tables has a handle of its own. -/
theorem tables_withChannel (hid : c.id ∉ g.channels.map (·.id)) :
    g.tables.withChannel c =
      { g with channels := g.channels ++ [c], linked := g.linked ++ [c] }.tables := by
  refine Tables.ext rfl rfl rfl rfl (enter_of_fresh hid) rfl rfl rfl rfl ?_ ?_
  · funext id direction
    simp only [Tables.withChannel, Tables.pushLink, tables, List.filter_append, List.map_append]
    cases direction with
    | output =>
      by_cases h : id = c.source.actor.id
      · simp [h, Link.near, Channel.endpoint]
      · simp [h, Ne.symm h, Link.near, Channel.endpoint]
    | input =>
      by_cases h : id = c.target.actor.id
      · simp [h, Link.near, Channel.endpoint]
      · simp [h, Ne.symm h, Link.near, Channel.endpoint]
  · funext id
    simp only [Tables.withChannel, Tables.pushLink, tables, List.any_append, List.any_cons,
      List.any_nil, Bool.or_false]
    rw [Bool.or_comm, Bool.beq_comm]

end Updates

section Copies

/-- A key that is new to a list is not found in it. -/
theorem key_notMem_of_nodup {α β : Type} {key : α → β} {before later : List α} {item : α}
    (h : ((before ++ item :: later).map key).Nodup) : key item ∉ before.map key := by
  rw [List.map_append, List.nodup_append] at h
  exact fun hmem => h.2.2 _ hmem _ (by simp) rfl

/-- Ports with handles and keys of their own are all found in the copy, with their rates. -/
theorem foldl_restorePort {t copy : Tables} {ports : List Port}
    (hids : ((copy.ports ++ ports).map (·.id)).Nodup)
    (hkeys : (ports.map fun p => (p.type, p.name)).Nodup) :
    ports.foldl t.restorePort copy =
      { copy with
        ports := copy.ports ++ ports
        keyed := fun type name =>
          ((ports.find? fun p => p.type == type && p.name == name).map (·.id)).or
            (copy.keyed type name)
        rates := fun id => if id ∈ ports.map (·.id) then t.rates id else copy.rates id } := by
  induction ports generalizing copy with
  | nil => simp
  | cons p ports ih =>
    obtain ⟨hkey, hkeys⟩ := List.nodup_cons.mp hkeys
    have hports : (t.restorePort copy p).ports = copy.ports ++ [p] :=
      enter_of_fresh (key_notMem_of_nodup hids)
    rw [List.foldl_cons, ih (by simpa [hports] using hids) hkeys, hports]
    refine Tables.ext rfl rfl (by simp) ?_ rfl rfl rfl ?_ rfl rfl rfl
    · funext id
      simp only [Tables.restorePort, Tables.withPort, List.map_cons, List.mem_cons]
      by_cases h : id = p.id
      · simp [h]
      · simp [h]
    · funext type name
      simp only [Tables.restorePort, Tables.withPort]
      by_cases h : type = p.type ∧ name = p.name
      · obtain ⟨rfl, rfl⟩ := h
        have hnone : ports.find? (fun q => q.type == p.type && q.name == p.name) = none := by
          refine List.find?_eq_none.mpr fun q hq hsame => hkey ?_
          obtain ⟨htype, hname⟩ := Bool.and_eq_true_iff.mp hsame
          exact List.mem_map.mpr ⟨q, hq, by rw [eq_of_beq htype, eq_of_beq hname]⟩
        simp [hnone]
      · rw [if_neg h, List.find?_cons, key_beq_eq_false h]

/-- Actors with handles and names of their own are put into the copy alike. -/
theorem foldl_withActor {copy : Graph} {actors : List Actor}
    (hids : ((copy.actors ++ actors).map (·.id)).Nodup)
    (hnames : ((copy.actors ++ actors).map (·.name)).Nodup)
    (htypes : ∀ b ∈ copy.actors, b.type ∈ copy.types) (hlinked : copy.linked = []) :
    actors.foldl Tables.withActor copy.tables = (actors.foldl restoreActor copy).tables := by
  induction actors generalizing copy with
  | nil => rfl
  | cons a actors ih =>
    have hname : copy.hasActor a.name = false := by
      refine List.any_eq_false.mpr fun b hb hsame => key_notMem_of_nodup hnames ?_
      exact List.mem_map.mpr ⟨b, hb, eq_of_beq hsame⟩
    have hlinks : ∀ c ∈ copy.linked, ∀ direction, (c.endpoint direction).actor.id ≠ a.id := by
      simp [hlinked]
    rw [List.foldl_cons, List.foldl_cons,
      tables_withActor (key_notMem_of_nodup hids) hname htypes hlinks]
    refine ih (by simpa [restoreActor] using hids) (by simpa [restoreActor] using hnames) ?_ hlinked
    intro b hb
    obtain hb | hb := List.mem_append.mp hb
    · exact mem_known.mpr (.inl (htypes b hb))
    · exact mem_known.mpr (.inr (congrArg Actor.type (List.mem_singleton.mp hb)))

variable {g : Graph} (hg : g.WellFormed)
include hg

private theorem WellFormed.foldl_restorePort_eq :
    g.ports.foldl g.tables.restorePort
      { Tables.empty g.name with modifiers := g.modifiers } = g.bare.tables := by
  rw [foldl_restorePort (by simpa [Tables.empty] using hg.nodup_port_ids) hg.nodup_ports]
  refine Tables.ext rfl rfl rfl ?_ rfl rfl rfl ?_ rfl rfl rfl
  · funext id
    show (if id ∈ g.ports.map (·.id) then g.rates.lookup id else none) = g.rates.lookup id
    split
    · rfl
    · rename_i h
      exact (hg.lookup_rates_eq_none h).symm
  · funext type name
    exact Option.or_none

private theorem WellFormed.tables_restoreEnd {copy : Graph} (hactors : copy.actors = g.actors)
    (hports : copy.ports = g.ports) {e : Endpoint} {direction : Direction}
    (he : e.FitsIn g direction) : copy.tables.restoreEnd e = .ok e := by
  have hactor : copy.tables.actorAt e.actor.id = .ok e.actor := by
    have heq : copy.tables.actors = g.tables.actors := hactors
    rw [Tables.actorAt, heq]
    exact hg.tables_actorAt he.actor_mem
  have hport : copy.tables.portAt e.port.id = .ok e.port := by
    have heq : copy.tables.ports = g.tables.ports := hports
    rw [Tables.portAt, heq]
    exact hg.tables_portAt he.port_mem
  rw [Tables.restoreEnd, hactor, hport]
  rfl

private theorem WellFormed.foldlM_tables_restoreChannel (copy : Graph) {channels : List Channel}
    (hactors : copy.actors = g.actors) (hports : copy.ports = g.ports)
    (hchannels : ∀ c ∈ channels, c ∈ g.channels)
    (hids : ((copy.channels ++ channels).map (·.id)).Nodup) :
    channels.foldlM g.tables.restoreChannel copy.tables =
      .ok { copy with
        channels := copy.channels ++ channels, linked := copy.linked ++ channels }.tables := by
  induction channels generalizing copy with
  | nil => simp [pure, Except.pure]
  | cons c channels ih =>
    obtain ⟨hc, hchannels⟩ := List.forall_mem_cons.mp hchannels
    let next :=
      { copy with channels := copy.channels ++ [c], linked := copy.linked ++ [c] }
    have hbound : g.tables.bound c.id = true :=
      List.any_eq_true.mpr ⟨c, hg.linked_eq ▸ hc, beq_self_eq_true c.id⟩
    have hsource : copy.tables.restoreEnd c.source = .ok c.source :=
      hg.tables_restoreEnd hactors hports (hg.joins c hc .output)
    have htarget : copy.tables.restoreEnd c.target = .ok c.target :=
      hg.tables_restoreEnd hactors hports (hg.joins c hc .input)
    have hstep : g.tables.restoreChannel copy.tables c = .ok next.tables := by
      rw [Tables.restoreChannel, hbound, hsource, htarget]
      exact congrArg Except.ok (tables_withChannel (key_notMem_of_nodup hids))
    have hrest := ih next hactors hports hchannels (by simpa [next] using hids)
    rw [List.foldlM_cons, hstep]
    refine hrest.trans ?_
    simp [next]

/-- The copy of the tables of a graph is the tables of its copy. -/
theorem WellFormed.tables_clone {copy : Graph} (h : g.clone = .ok copy) :
    g.tables.clone = .ok copy.tables := by
  obtain ⟨types, hactors, -⟩ := foldl_restoreActor g.actors g.bare
  have hcopy : copy = { g with types, linked := g.channels } := by
    rw [clone, hactors] at h
    refine Except.ok.inj (h.symm.trans (hg.foldlM_restoreChannel
      { g.bare with actors := g.actors, types } rfl rfl fun _ => id)) |>.trans ?_
    simp [bare, Graph.empty]
  have hfold : g.actors.foldl Tables.withActor g.bare.tables =
      { g.bare with actors := g.actors, types }.tables := by
    rw [foldl_withActor (by simpa [bare, Graph.empty] using hg.nodup_actor_ids)
      (by simpa [bare, Graph.empty] using hg.nodup_names) (by simp [bare, Graph.empty]) rfl,
      hactors]
    simp [bare, Graph.empty]
  have hmodifiers : g.tables.clone =
      g.channels.foldlM g.tables.restoreChannel (g.actors.foldl Tables.withActor
        (g.ports.foldl g.tables.restorePort
          { Tables.empty g.name with modifiers := g.modifiers })) := rfl
  rw [hmodifiers, hg.foldl_restorePort_eq, hfold, hcopy]
  refine (hg.foldlM_tables_restoreChannel { g.bare with actors := g.actors, types } rfl rfl
    (fun _ => id) hg.nodup_channel_ids).trans ?_
  simp [bare, Graph.empty]

end Copies

end Dataflow.Graph
