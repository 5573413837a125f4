import Dataflow.Proofs.Graph.Store

namespace Dataflow

/-- Handles that ascend, and a handle that is above them all. -/
theorem pairwise_concat {handles : List Handle} {next : Handle}
    (h : handles.Pairwise (· < ·)) (hlt : ∀ handle ∈ handles, handle < next) :
    (handles ++ [next]).Pairwise (· < ·) := by
  rw [List.pairwise_append]
  refine ⟨h, List.pairwise_singleton _ _, fun handle hmem new hnew => ?_⟩
  rw [List.mem_singleton.mp hnew]
  exact hlt handle hmem

namespace Graph

variable {g g' g'' : Graph}

section Order

/-- The handles of a graph stand in the order in which they were given out. -/
structure InOrder (g : Graph) : Prop where
  actors : (g.actors.map (·.id)).Pairwise (· < ·)
  ports : (g.ports.map (·.id)).Pairwise (· < ·)
  channels : (g.channels.map (·.id)).Pairwise (· < ·)

theorem InOrder.empty (name : Option String) : (Graph.empty name).InOrder :=
  ⟨List.Pairwise.nil, List.Pairwise.nil, List.Pairwise.nil⟩

/-- What is new gets a handle above all others, and what goes leaves the others where they are. -/
theorem Change.inOrder (h : Change g g') (hg : g.WellFormed) (ho : g.InOrder) : g'.InOrder := by
  cases h with
  | useHandle => exact ⟨ho.actors, ho.ports, ho.channels⟩
  | addActor hid hname =>
    refine ⟨?_, ho.ports, ho.channels⟩
    rw [List.map_append, List.map_singleton, hid]
    exact pairwise_concat ho.actors fun handle => hg.actor_id_lt
  | addPort hid hname rate =>
    refine ⟨ho.actors, ?_, ho.channels⟩
    rw [List.map_append, List.map_singleton, hid]
    exact pairwise_concat ho.ports fun handle => hg.port_id_lt
  | setRate hp hnone rate => exact ⟨ho.actors, ho.ports, ho.channels⟩
  | addChannel hid hsource htarget =>
    refine ⟨ho.actors, ho.ports, ?_⟩
    rw [List.map_append, List.map_singleton, hid]
    exact pairwise_concat ho.channels fun handle => hg.channel_id_lt
  | addModifier hnone => exact ⟨ho.actors, ho.ports, ho.channels⟩
  | removeChannel id =>
    exact ⟨ho.actors, ho.ports, ho.channels.sublist (List.filter_sublist.map _)⟩
  | removeActor a =>
    rw [hg.removeActor_eq]
    exact ⟨ho.actors.sublist (List.filter_sublist.map _), ho.ports,
      ho.channels.sublist (List.filter_sublist.map _)⟩
  | copy hclone =>
    obtain ⟨types, heq, -⟩ := hg.clone_eq
    cases hclone.symm.trans heq
    exact ⟨ho.actors, ho.ports, ho.channels⟩

end Order

section Handles

namespace Store

/-- The handles of everything in a store. -/
def handles (s : Store) : List Handle :=
  s.actors.map (·.id) ++ s.ports.map (·.id) ++ s.channels.map (·.id)

/-- What is in `s'` and not in `s` has a handle that `s` had still to give out. -/
structure Follows (s s' : Store) : Prop where
  nextHandle_le : s.nextHandle ≤ s'.nextHandle
  actors : ∀ a ∈ s'.actors, a ∈ s.actors ∨ s.nextHandle ≤ a.id
  ports : ∀ p ∈ s'.ports, p ∈ s.ports ∨ s.nextHandle ≤ p.id
  channels : ∀ c ∈ s'.channels, c ∈ s.channels ∨ s.nextHandle ≤ c.id

namespace Follows

variable {s s' s'' : Store}

theorem refl (s : Store) : Follows s s :=
  ⟨Nat.le_refl _, fun _ => .inl, fun _ => .inl, fun _ => .inl⟩

theorem trans (h : Follows s s') (h' : Follows s' s'') : Follows s s'' where
  nextHandle_le := Nat.le_trans h.nextHandle_le h'.nextHandle_le
  actors := fun a ha => (h'.actors a ha).elim (h.actors a) fun hnew =>
    .inr (Nat.le_trans h.nextHandle_le hnew)
  ports := fun p hp => (h'.ports p hp).elim (h.ports p) fun hnew =>
    .inr (Nat.le_trans h.nextHandle_le hnew)
  channels := fun c hc => (h'.channels c hc).elim (h.channels c) fun hnew =>
    .inr (Nat.le_trans h.nextHandle_le hnew)

/-- A handle that was given out and belongs to nothing any more stays unused. -/
theorem notMem_handles (h : Follows s s') {handle : Handle} (hlt : handle < s.nextHandle)
    (hgone : handle ∉ s.handles) : handle ∉ s'.handles := by
  have hold {α : Type} {items items' : List α} {id : α → Handle}
      (hitems : ∀ x ∈ items', x ∈ items ∨ s.nextHandle ≤ id x) (hmem : handle ∈ items'.map id) :
      handle ∈ items.map id := by
    obtain ⟨x, hx, rfl⟩ := List.mem_map.mp hmem
    exact List.mem_map_of_mem ((hitems x hx).resolve_right (Nat.not_le_of_lt hlt))
  simp only [handles, List.mem_append, not_or] at hgone ⊢
  exact ⟨⟨fun hmem => hgone.1.1 (hold h.actors hmem), fun hmem => hgone.1.2 (hold h.ports hmem)⟩,
    fun hmem => hgone.2 (hold h.channels hmem)⟩

end Follows

end Store

theorem Change.follows (h : Change g g') (hg : g.WellFormed) : g.store.Follows g'.store := by
  have hconcat {α : Type} {items : List α} {id : α → Handle} {new : α}
      (hid : id new = g.nextHandle) : ∀ x ∈ items ++ [new], x ∈ items ∨ g.nextHandle ≤ id x := by
    intro x hx
    rcases List.mem_append.mp hx with hx | hx
    · exact .inl hx
    · rw [List.mem_singleton.mp hx, hid]
      exact .inr (Nat.le_refl _)
  have hsame := Store.Follows.refl g.store
  cases h with
  | useHandle => exact ⟨Nat.le_succ _, hsame.actors, hsame.ports, hsame.channels⟩
  | addActor hid hname => exact ⟨Nat.le_succ _, hconcat hid, hsame.ports, hsame.channels⟩
  | addPort hid hname rate => exact ⟨Nat.le_succ _, hsame.actors, hconcat hid, hsame.channels⟩
  | setRate hp hnone rate => exact ⟨hsame.nextHandle_le, hsame.actors, hsame.ports, hsame.channels⟩
  | addChannel hid hsource htarget =>
    exact ⟨Nat.le_succ _, hsame.actors, hsame.ports, hconcat hid⟩
  | addModifier hnone => exact ⟨hsame.nextHandle_le, hsame.actors, hsame.ports, hsame.channels⟩
  | removeChannel id =>
    exact ⟨hsame.nextHandle_le, hsame.actors, hsame.ports,
      fun _ hc => .inl (List.mem_of_mem_filter hc)⟩
  | removeActor a =>
    rw [hg.removeActor_eq]
    exact ⟨hsame.nextHandle_le, fun _ ha => .inl (List.mem_of_mem_filter ha), hsame.ports,
      fun _ hc => .inl (List.mem_of_mem_filter hc)⟩
  | copy hclone =>
    obtain ⟨types, heq, -⟩ := hg.clone_eq
    cases hclone.symm.trans heq
    exact ⟨hsame.nextHandle_le, hsame.actors, hsame.ports, hsame.channels⟩

end Handles

section Coherence

/-- The arenas of a store, its indexes, the lists of its types and the links of its actors agree. -/
structure Store.Coherent (s : Store) : Prop where
  nodup_handles : s.handles.Nodup
  handle_lt : ∀ handle ∈ s.handles, handle < s.nextHandle
  /-- The items of an arena stand in the order in which they were added. -/
  actors_ascend : (s.actors.map (·.id)).Pairwise (· < ·)
  ports_ascend : (s.ports.map (·.id)).Pairwise (· < ·)
  channels_ascend : (s.channels.map (·.id)).Pairwise (· < ·)
  named_iff : ∀ name id, s.named name = some id ↔ ∃ a ∈ s.actors, a.name = name ∧ a.id = id
  named_injective : ∀ name other id,
    s.named name = some id → s.named other = some id → name = other
  actorNamed : ∀ name a, s.actorNamed name = .ok a ↔ a ∈ s.actors ∧ a.name = name
  keyed_iff : ∀ type name id,
    s.keyed type name = some id ↔ ∃ p ∈ s.ports, p.type = type ∧ p.name = name ∧ p.id = id
  keyed_injective : ∀ type name type' name' id, s.keyed type name = some id →
    s.keyed type' name' = some id → type = type' ∧ name = name'
  portNamed : ∀ type name p,
    s.portNamed type name = .ok p ↔ p ∈ s.ports ∧ p.type = type ∧ p.name = name
  /-- The list of a type has its actors, in the order of the arena. A type without a list has none. -/
  instances : ∀ type,
    (s.instances type).getD [] = (s.actors.filter (·.type = type)).map (·.id)
  actorsOf : ∀ type, s.actorsOf type = .ok (s.actors.filter (·.type = type)) ∨
    s.actorsOf type = .error (.unknownType type) ∧ ∀ a ∈ s.actors, a.type ≠ type
  /-- The channels in the arena are those that have their ends. -/
  bound_iff : ∀ id, s.bound id = true ↔ ∃ c ∈ s.channels, c.id = id
  actor_mem : ∀ c ∈ s.channels, ∀ direction, (c.endpoint direction).actor ∈ s.actors
  port_mem : ∀ c ∈ s.channels, ∀ direction, (c.endpoint direction).port ∈ s.ports
  type_eq : ∀ c ∈ s.channels, ∀ direction,
    (c.endpoint direction).port.type = (c.endpoint direction).actor.type
  direction_eq : ∀ c ∈ s.channels, ∀ direction, (c.endpoint direction).port.direction = direction
  /-- The links of an actor are the ends at it of the channels in the arena, in their order. -/
  links_eq : ∀ a ∈ s.actors, ∀ direction, s.links a.id direction =
    (s.channels.filter fun c => (c.endpoint direction).actor = a).map (⟨·, direction⟩)
  /-- What is no actor any more has no links. -/
  links_eq_nil : ∀ id, id ∉ s.actors.map (·.id) → ∀ direction, s.links id direction = []
  /-- The opposite of a link stands at the actor at the other end, and leads back. -/
  opposite : ∀ a ∈ s.actors, ∀ direction, ∀ l ∈ s.links a.id direction,
    ∃ k, s.opposite l = .ok k ∧ k.near.actor ∈ s.actors ∧
      k ∈ s.links k.near.actor.id direction.opposite ∧ s.opposite k = .ok l
  rates_at_ports : ∀ id, (s.rates id).isSome → id ∈ s.ports.map (·.id)
  nodup_parameters : (s.modifiers.map (·.parameter)).Nodup

private theorem tables_named_eq_some_iff {name : String} {id : Handle} (hg : g.WellFormed) :
    g.tables.named name = some id ↔ ∃ a ∈ g.actors, a.name = name ∧ a.id = id := by
  simp only [tables, Option.map_eq_some_iff,
    find?_eq_some_iff_of_key hg.nodup_names (t := (·.name == name)) (k := name) (by simp),
    and_assoc]

private theorem tables_keyed_eq_some_iff {type name : String} {id : Handle} (hg : g.WellFormed) :
    g.tables.keyed type name = some id ↔
      ∃ p ∈ g.ports, p.type = type ∧ p.name = name ∧ p.id = id := by
  simp only [tables, Option.map_eq_some_iff,
    find?_eq_some_iff_of_key hg.nodup_ports
      (t := fun p => p.type == type && p.name == name) (k := (type, name)) (by simp),
    Prod.mk.injEq, and_assoc]

variable (hg : g.WellFormed)
include hg

private theorem WellFormed.actorsOf_eq (type : String) :
    g.actorsOf type = .ok (g.actors.filter (·.type = type)) ∨
      g.actorsOf type = .error (.unknownType type) ∧ ∀ a ∈ g.actors, a.type ≠ type := by
  unfold Graph.actorsOf
  split
  · exact .inl rfl
  · rename_i hunknown
    refine .inr ⟨rfl, ?_⟩
    rintro a ha rfl
    exact hunknown (List.contains_iff_mem.mpr (hg.types_known a ha))

private theorem WellFormed.links_eq {a : Actor} (ha : a ∈ g.actors) {direction : Direction} :
    g.links a direction =
      (g.channels.filter fun c => (c.endpoint direction).actor = a).map (⟨·, direction⟩) := by
  rw [links, hg.linked_eq]
  congr 1
  refine List.filter_congr fun c hc => ?_
  rw [Bool.eq_iff_iff, beq_iff_eq, decide_eq_true_iff]
  exact ⟨hg.actor_eq_of_id (hg.joins c hc direction).actor_mem ha, congrArg Actor.id⟩

private theorem WellFormed.tables_links_eq_nil {id : Handle} (h : id ∉ g.actors.map (·.id))
    (direction : Direction) : g.tables.links id direction = [] := by
  refine List.eq_nil_iff_forall_not_mem.mpr fun l hl => h ?_
  obtain ⟨hlinked, rfl, rfl⟩ := mem_tables_links.mp hl
  exact List.mem_map_of_mem (hg.joins l.channel (hg.linked_eq ▸ hlinked) l.direction).actor_mem

/-- The direction of the port at a link is that of the link, so the opposite is found at the other
end. -/
theorem WellFormed.tables_opposite {l : Link} (hl : l.channel ∈ g.channels) :
    g.tables.opposite l = .ok l.opposite := by
  have hbound : g.tables.bound l.channel.id = true :=
    List.any_eq_true.mpr ⟨l.channel, hg.linked_eq ▸ hl, beq_self_eq_true _⟩
  have hdirection : l.near.port.direction = l.direction :=
    (hg.joins l.channel hl l.direction).direction_eq
  rw [Tables.opposite, if_pos hbound, hdirection]
  rfl

private theorem WellFormed.exists_tables_opposite {id : Handle} {direction : Direction} {l : Link}
    (hl : l ∈ g.tables.links id direction) :
    ∃ k, g.tables.opposite l = .ok k ∧ k.near.actor ∈ g.actors ∧
      k ∈ g.tables.links k.near.actor.id direction.opposite ∧ g.tables.opposite k = .ok l := by
  obtain ⟨hlinked, rfl, rfl⟩ := mem_tables_links.mp hl
  have hc : l.channel ∈ g.channels := hg.linked_eq ▸ hlinked
  refine ⟨l.opposite, hg.tables_opposite hc, hg.far_mem hc, ?_, ?_⟩
  · exact mem_tables_links.mpr ⟨hlinked, rfl, rfl⟩
  · rw [hg.tables_opposite (l := l.opposite) hc, Link.opposite_opposite]

/-- What the operations take care of is enough for the store of a graph to be coherent. -/
theorem WellFormed.coherent_store (ho : g.InOrder) : g.store.Coherent where
  nodup_handles := hg.issued.1
  handle_lt := hg.issued.2
  actors_ascend := ho.actors
  ports_ascend := ho.ports
  channels_ascend := ho.channels
  named_iff := fun _ _ => tables_named_eq_some_iff hg
  named_injective := by
    intro name other id hname hother
    obtain ⟨a, ha, rfl, rfl⟩ := (tables_named_eq_some_iff hg).mp hname
    obtain ⟨b, hb, rfl, hid⟩ := (tables_named_eq_some_iff hg).mp hother
    rw [hg.actor_eq_of_id ha hb hid.symm]
  actorNamed := fun _ _ => by
    rw [show g.store.actorNamed _ = _ from hg.tables_actorNamed]
    exact hg.actorNamed_eq_ok_iff
  keyed_iff := fun _ _ _ => tables_keyed_eq_some_iff hg
  keyed_injective := by
    intro type name type' name' id hkey hother
    obtain ⟨p, hp, rfl, rfl, rfl⟩ := (tables_keyed_eq_some_iff hg).mp hkey
    obtain ⟨q, hq, rfl, rfl, hid⟩ := (tables_keyed_eq_some_iff hg).mp hother
    obtain rfl := List.inj_on_of_nodup_map hg.nodup_port_ids hq hp hid
    exact ⟨rfl, rfl⟩
  portNamed := fun _ _ _ => by
    rw [show g.store.portNamed _ _ = _ from hg.tables_portNamed]
    exact hg.portNamed_eq_ok_iff
  instances := fun _ => getD_tables_instances hg.types_known
  actorsOf := fun type => by
    rw [show g.store.actorsOf type = _ from hg.tables_actorsOf]
    exact hg.actorsOf_eq type
  bound_iff := by
    intro id
    show g.linked.any (·.id == id) = true ↔ _
    simp only [List.any_eq_true, beq_iff_eq, hg.linked_eq]
    rfl
  actor_mem := fun c hc direction => (hg.joins c hc direction).actor_mem
  port_mem := fun c hc direction => (hg.joins c hc direction).port_mem
  type_eq := fun c hc direction => (hg.joins c hc direction).type_eq
  direction_eq := fun c hc direction => (hg.joins c hc direction).direction_eq
  links_eq := fun _ ha _ => hg.links_eq ha
  links_eq_nil := fun _ h direction => hg.tables_links_eq_nil h direction
  opposite := fun _ _ _ _ hl => hg.exists_tables_opposite hl
  rates_at_ports := by
    intro id hrate
    by_contra hnone
    rw [show g.store.rates id = _ from hg.lookup_rates_eq_none hnone] at hrate
    cases hrate
  nodup_parameters := hg.nodup_parameters

end Coherence

end Graph

end Dataflow
