import Dataflow.Proofs.Graph.Change
import Mathlib.Data.List.Nodup

namespace Dataflow

/-- Handles that were given out once each, before the handle `next`. -/
def Issued (next : Handle) (handles : List Handle) : Prop :=
  handles.Nodup ∧ ∀ handle ∈ handles, handle < next

namespace Issued

variable {next : Handle} {handles : List Handle}

theorem succ (h : Issued next handles) : Issued (next + 1) handles :=
  ⟨h.1, fun handle hmem => Nat.lt_succ_of_lt (h.2 handle hmem)⟩

theorem sublist {fewer : List Handle} (h : Issued next handles) (hsub : fewer.Sublist handles) :
    Issued next fewer :=
  ⟨h.1.sublist hsub, fun handle hmem => h.2 handle (hsub.subset hmem)⟩

/-- The next handle may stand anywhere among those given out before. -/
theorem insert {before later : List Handle} (h : Issued next (before ++ later)) :
    Issued (next + 1) (before ++ next :: later) := by
  have hnew : next ∉ before ++ later := fun hmem => Nat.lt_irrefl next (h.2 next hmem)
  constructor
  · rw [List.perm_middle.nodup_iff, List.nodup_cons]
    exact ⟨hnew, h.1⟩
  · intro handle hmem
    rcases List.mem_cons.mp (List.perm_middle.mem_iff.mp hmem) with rfl | hmem
    · exact Nat.lt_succ_self handle
    · exact Nat.lt_succ_of_lt (h.2 handle hmem)

end Issued

/-- A key that differs between the items of a list finds each of them. -/
theorem find?_eq_some_iff_of_key {α β : Type} {items : List α} {key : α → β} {t : α → Bool}
    {k : β} {a : α} (hnodup : (items.map key).Nodup) (htest : ∀ b, t b = true ↔ key b = k) :
    items.find? t = some a ↔ a ∈ items ∧ key a = k := by
  constructor
  · intro h
    exact ⟨List.mem_of_find?_eq_some h, (htest a).mp (List.find?_some h)⟩
  · rintro ⟨ha, hkey⟩
    cases hfound : items.find? t with
    | none => exact absurd ((htest a).mpr hkey) (List.find?_eq_none.mp hfound a ha)
    | some b =>
      have hb : key b = k := (htest b).mp (List.find?_some hfound)
      exact congrArg some
        (List.inj_on_of_nodup_map hnodup (List.mem_of_find?_eq_some hfound) ha (hb.trans hkey.symm))

private theorem nodup_map_cast {α : Type} {items : List α} {id : α → Handle}
    (h : (items.map id).Nodup) : (items.map fun a => (id a : Int)).Nodup := by
  have hcast := h.map (f := Int.ofNat) fun _ _ => Int.ofNat.inj
  rwa [List.map_map] at hcast

namespace Graph

/-- The handles of everything in a graph. -/
def handles (g : Graph) : List Handle :=
  g.actors.map (·.id) ++ g.ports.map (·.id) ++ g.channels.map (·.id)

/-- What the operations take care of. -/
structure WellFormed (g : Graph) : Prop where
  issued : Issued g.nextHandle g.handles
  nodup_names : (g.actors.map (·.name)).Nodup
  nodup_ports : (g.ports.map fun p => (p.type, p.name)).Nodup
  nodup_parameters : (g.modifiers.map (·.parameter)).Nodup
  types_known : ∀ a ∈ g.actors, a.type ∈ g.types
  nodup_rates : (g.rates.map Prod.fst).Nodup
  rates_at_ports : ∀ entry ∈ g.rates, entry.1 ∈ g.ports.map (·.id)
  linked_eq : g.linked = g.channels
  joins : ∀ c ∈ g.channels, ∀ direction, (c.endpoint direction).FitsIn g direction

/-- No channel has lost its ends, whether it is met on the list or at an actor. -/
def Bound (g : Graph) : Prop :=
  ∀ c, c ∈ g.channels ∨ c ∈ g.linked → ∀ direction, g.linkOf c direction = .ok ⟨c, direction⟩

namespace WellFormed

theorem empty (name : Option String) : (Graph.empty name).WellFormed where
  issued := ⟨List.nodup_nil, fun _ hmem => by simp [handles, Graph.empty] at hmem⟩
  nodup_names := List.nodup_nil
  nodup_ports := List.nodup_nil
  nodup_parameters := List.nodup_nil
  types_known := fun _ hmem => by simp [Graph.empty] at hmem
  nodup_rates := List.nodup_nil
  rates_at_ports := fun _ hmem => by simp [Graph.empty] at hmem
  linked_eq := rfl
  joins := fun _ hmem => by simp [Graph.empty] at hmem

section Consequences

variable {g : Graph} (hg : g.WellFormed)
include hg

theorem nodup_actor_ids : (g.actors.map (·.id)).Nodup :=
  (List.nodup_append.mp (List.nodup_append.mp hg.issued.1).1).1

theorem nodup_port_ids : (g.ports.map (·.id)).Nodup :=
  (List.nodup_append.mp (List.nodup_append.mp hg.issued.1).1).2.1

theorem nodup_channel_ids : (g.channels.map (·.id)).Nodup :=
  (List.nodup_append.mp hg.issued.1).2.1

theorem port_id_lt {handle : Handle} (h : handle ∈ g.ports.map (·.id)) : handle < g.nextHandle :=
  hg.issued.2 handle (List.mem_append_left _ (List.mem_append_right _ h))

theorem actor_id_lt {handle : Handle} (h : handle ∈ g.actors.map (·.id)) : handle < g.nextHandle :=
  hg.issued.2 handle (List.mem_append_left _ (List.mem_append_left _ h))

theorem channel_id_lt {handle : Handle} (h : handle ∈ g.channels.map (·.id)) :
    handle < g.nextHandle :=
  hg.issued.2 handle (List.mem_append_right _ h)

/-- A port that is not in the graph has no rate. -/
theorem lookup_rates_eq_none {handle : Handle} (h : handle ∉ g.ports.map (·.id)) :
    g.rates.lookup handle = none := by
  refine List.lookup_eq_none_iff.mpr fun entry hentry => bne_iff_ne.mpr ?_
  rintro rfl
  exact h (hg.rates_at_ports entry hentry)

/-- Actors of a graph with the same handle are equal. -/
theorem actor_eq_of_id {a b : Actor} (ha : a ∈ g.actors) (hb : b ∈ g.actors) (h : a.id = b.id) :
    a = b :=
  List.inj_on_of_nodup_map hg.nodup_actor_ids ha hb h

/-- Channels of a graph with the same handle are equal. -/
theorem channel_eq_of_id {c d : Channel} (hc : c ∈ g.channels) (hd : d ∈ g.channels)
    (h : c.id = d.id) : c = d :=
  List.inj_on_of_nodup_map hg.nodup_channel_ids hc hd h

/-- A link leads to an actor of the graph. -/
theorem far_mem {l : Link} (h : l.channel ∈ g.channels) : l.far.actor ∈ g.actors :=
  (hg.joins l.channel h l.direction.opposite).actor_mem

/-- The links of an actor look from it at the channels of the graph. -/
theorem mem_links {a : Actor} (ha : a ∈ g.actors) {direction : Direction} {l : Link} :
    l ∈ g.links a direction ↔
      l.channel ∈ g.channels ∧ l.direction = direction ∧ l.near.actor = a := by
  simp only [links, hg.linked_eq, List.mem_map, List.mem_filter, beq_iff_eq]
  constructor
  · rintro ⟨c, ⟨hc, hid⟩, rfl⟩
    exact ⟨hc, rfl, hg.actor_eq_of_id (hg.joins c hc direction).actor_mem ha hid⟩
  · rintro ⟨hc, rfl, rfl⟩
    exact ⟨l.channel, ⟨hc, rfl⟩, rfl⟩

theorem mem_allLinks {a : Actor} (ha : a ∈ g.actors) {l : Link} :
    l ∈ g.allLinks a ↔ l.channel ∈ g.channels ∧ l.near.actor = a := by
  rw [allLinks, List.mem_append, hg.mem_links ha, hg.mem_links ha]
  cases h : l.direction <;> simp

theorem bound : g.Bound := by
  intro c hc direction
  rw [← hg.linked_eq, or_self] at hc
  have hbound : g.isBound c = true := List.any_eq_true.mpr ⟨c, hc, beq_self_eq_true c.id⟩
  rw [linkOf, if_pos hbound]

theorem actorNamed_eq_ok_iff {name : String} {a : Actor} :
    g.actorNamed name = .ok a ↔ a ∈ g.actors ∧ a.name = name := by
  rw [← find?_eq_some_iff_of_key hg.nodup_names (t := (·.name == name)) (by simp), actorNamed]
  cases g.actors.find? (·.name == name) <;> simp

theorem portNamed_eq_ok_iff {type name : String} {p : Port} :
    g.portNamed type name = .ok p ↔ p ∈ g.ports ∧ p.type = type ∧ p.name = name := by
  rw [← Prod.mk.injEq, ← find?_eq_some_iff_of_key hg.nodup_ports
    (t := fun p => p.type == type && p.name == name) (by simp), portNamed]
  cases g.ports.find? fun p => p.type == type && p.name == name <;> simp

theorem modifierOf_eq_ok_iff {parameter : String} {m : Modifier} :
    g.modifierOf parameter = .ok m ↔ m ∈ g.modifiers ∧ m.parameter = parameter := by
  rw [← find?_eq_some_iff_of_key hg.nodup_parameters (t := (·.parameter == parameter)) (by simp),
    modifierOf]
  cases g.modifiers.find? (·.parameter == parameter) <;> simp

theorem actorAt_eq_ok_iff {handle : Int} {a : Actor} :
    g.actorAt handle = .ok a ↔ a ∈ g.actors ∧ (a.id : Int) = handle := by
  rw [← find?_eq_some_iff_of_key (nodup_map_cast hg.nodup_actor_ids)
    (t := fun a => (a.id : Int) == handle) (by simp), actorAt]
  cases g.actors.find? fun a => (a.id : Int) == handle <;> simp

theorem portAt_eq_ok_iff {handle : Int} {p : Port} :
    g.portAt handle = .ok p ↔ p ∈ g.ports ∧ (p.id : Int) = handle := by
  rw [← find?_eq_some_iff_of_key (nodup_map_cast hg.nodup_port_ids)
    (t := fun p => (p.id : Int) == handle) (by simp), portAt]
  cases g.ports.find? fun p => (p.id : Int) == handle <;> simp

end Consequences

end WellFormed

end Graph

end Dataflow
