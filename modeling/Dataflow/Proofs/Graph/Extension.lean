import Dataflow.Proofs.Graph.Growth

namespace Dataflow.Graph

open Dataflow.Action

/-- A graph in order that has all of the graph `g` as it was, and after that the given actors and
channels. -/
structure Extends (g g' : Graph) (actors : List Actor) (channels : List Channel) : Prop where
  wellFormed : g'.WellFormed
  name_eq : g'.name = g.name
  actors_eq : g'.actors = g.actors ++ actors
  ports : g.ports <+: g'.ports
  rateText?_eq : ∀ p ∈ g.ports, g'.rateText? p = g.rateText? p
  channels_eq : g'.channels = g.channels ++ channels
  links : ∀ a direction, g.links a direction <+: g'.links a direction
  modifiers_eq : g'.modifiers = g.modifiers

private theorem links_prefix_of_append {g g' : Graph} {more : List Channel}
    (h : g'.linked = g.linked ++ more) (a : Actor) (direction : Direction) :
    g.links a direction <+: g'.links a direction := by
  rw [Graph.links, Graph.links, h, List.filter_append, List.map_append]
  exact List.prefix_append ..

namespace Extends

variable {g g' g'' : Graph} {actors : List Actor} {channels : List Channel}

theorem refl (hg : g.WellFormed) : Extends g g [] [] where
  wellFormed := hg
  name_eq := rfl
  actors_eq := (List.append_nil _).symm
  ports := List.prefix_rfl
  rateText?_eq := fun _ _ => rfl
  channels_eq := (List.append_nil _).symm
  links := fun _ _ => List.prefix_rfl
  modifiers_eq := rfl

/-- What is new in the first extension comes before what is new in the second. -/
theorem trans {actors' : List Actor} {channels' : List Channel} (h : Extends g g' actors channels)
    (h' : Extends g' g'' actors' channels') :
    Extends g g'' (actors ++ actors') (channels ++ channels') where
  wellFormed := h'.wellFormed
  name_eq := h'.name_eq.trans h.name_eq
  actors_eq := by rw [h'.actors_eq, h.actors_eq, List.append_assoc]
  ports := h.ports.trans h'.ports
  rateText?_eq := fun p hp =>
    (h'.rateText?_eq p (h.ports.subset hp)).trans (h.rateText?_eq p hp)
  channels_eq := by rw [h'.channels_eq, h.channels_eq, List.append_assoc]
  links := fun a direction => (h.links a direction).trans (h'.links a direction)
  modifiers_eq := h'.modifiers_eq.trans h.modifiers_eq

variable (h : Extends g g' actors channels)
include h

/-- A handle may be used up. -/
theorem useHandle : Extends g { g' with nextHandle := g'.nextHandle + 1 } actors channels :=
  { h with wellFormed := Change.useHandle.wellFormed h.wellFormed }

theorem addActor {name type : String} {execTime : Int} {auto : Bool} {a : Actor}
    (hadd : Graph.addActor name type execTime auto g' = .ok a g'') :
    Extends g g'' (actors ++ [a]) channels := by
  have hgrown := addActor_grown.of_ok ⟨h.wellFormed, .refl g'⟩ hadd
  obtain ⟨-, rfl⟩ := addActor_eq_ok hadd
  refine { h with wellFormed := hgrown.1, actors_eq := ?_ }
  rw [h.actors_eq, List.append_assoc]

theorem addPort {type name : String} {direction : Direction} {rate : Option String} {p : Port}
    (hadd : Graph.addPort type name direction rate g' = .ok p g'') :
    Extends g g'' actors channels := by
  have hgrown := addPort_grown.of_ok ⟨h.wellFormed, .refl g'⟩ hadd
  obtain ⟨-, rfl, rfl⟩ := addPort_eq_ok hadd
  refine { h with
    wellFormed := hgrown.1
    ports := h.ports.trans (List.prefix_append ..)
    rateText?_eq := fun q hq => ?_ }
  -- The new port has a handle that no port had before.
  have hlt := h.wellFormed.port_id_lt (List.mem_map_of_mem (h.ports.subset hq))
  rw [← h.rateText?_eq q hq, rateText?, rateText?, List.lookup_append]
  have hnone : (rate.toList.map ((g'.nextHandle : Handle), ·)).lookup q.id = none := by
    cases rate with
    | none => rfl
    | some text => simp [Nat.ne_of_lt hlt]
  rw [hnone, Option.or_none]

theorem addChannel {source target : String × String} {spec : ChannelSpec} {c : Channel}
    (hadd : Graph.addChannel source target spec g' = .ok c g'') :
    Extends g g'' actors (channels ++ [c]) := by
  have hgrown := addChannel_grown.of_ok ⟨h.wellFormed, .refl g'⟩ hadd
  obtain ⟨-, -, -, rfl⟩ := addChannel_eq_ok hadd
  refine { h with wellFormed := hgrown.1, channels_eq := ?_, links := fun a direction => ?_ }
  · rw [h.channels_eq, List.append_assoc]
  · exact (h.links a direction).trans (links_prefix_of_append rfl a direction)

/-- The actors that are new were not there before. -/
theorem nodup_new : (actors.map (·.id)).Nodup := by
  have hnodup := h.wellFormed.nodup_actor_ids
  rw [h.actors_eq, List.map_append] at hnodup
  exact (List.nodup_append.mp hnodup).2.1

end Extends

/-- Ports of actors that are there can be joined. -/
theorem exists_addChannel {g : Graph} (hg : g.WellFormed) {source target : Endpoint}
    (hsource : source.FitsIn g .output) (htarget : target.FitsIn g .input) (spec : ChannelSpec)
    (htokens : 0 ≤ spec.initialTokens) :
    ∃ c g', Graph.addChannel (source.actor.name, source.port.name)
        (target.actor.name, target.port.name) spec g = .ok c g' ∧
      c.source = source ∧ c.target = target := by
  rw [addChannel_eq, if_neg (Int.not_lt.mpr htokens),
    hg.endpoint_eq_ok_iff.mpr ⟨hsource, rfl, rfl⟩, hg.endpoint_eq_ok_iff.mpr ⟨htarget, rfl, rfl⟩]
  exact ⟨_, _, rfl, rfl, rfl⟩

theorem addActor_eq_error {g g' : Graph} {name type : String} {execTime : Int} {auto : Bool}
    {e : Failure} (h : Graph.addActor name type execTime auto g = .error e g') : g' = g := by
  rw [addActor_eq] at h
  split at h <;> cases h
  rfl

private theorem addPort_eq_error {g g' : Graph} {type name : String} {direction : Direction}
    {rate : Option String} {e : Failure}
    (h : Graph.addPort type name direction rate g = .error e g') : g' = g := by
  rw [addPort_eq] at h
  split at h <;> cases h
  rfl

/-- A graph with channels of an analysis besides. -/
def Wired (origin : Graph) (actors : List Actor) (channels : List Channel) (g : Graph) : Prop :=
  ∃ wired, Extends origin g actors (channels ++ wired) ∧ ∀ c ∈ wired, c.auto = true

section Keeping

variable {origin : Graph} {actors : List Actor} {channels : List Channel}

theorem Extends.wired {g : Graph} (h : Extends origin g actors channels) :
    Wired origin actors channels g :=
  ⟨[], (List.append_nil channels).symm ▸ h, by simp⟩

theorem keeps_addPort_extends {type name : String} {direction : Direction} {rate : Option String} :
    (Graph.addPort type name direction rate).Keeps fun g => Extends origin g actors channels := by
  intro g hg
  cases hadd : Graph.addPort type name direction rate g with
  | ok p g' =>
    rw [after_of_ok hadd]
    exact hg.addPort hadd
  | error e g' =>
    rw [after_of_error hadd, addPort_eq_error hadd]
    exact hg

/-- A channel that is refused for its ends has used up a handle. -/
theorem addChannel_wired {source target : String × String} {spec : ChannelSpec}
    (hauto : spec.auto = true) :
    (Graph.addChannel source target spec).Keeps (Wired origin actors channels) := by
  rintro g ⟨wired, hg, hwired⟩
  cases hadd : Graph.addChannel source target spec g with
  | ok c g' =>
    rw [after_of_ok hadd]
    obtain ⟨-, -, hc, -⟩ := addChannel_eq_ok hadd
    refine ⟨wired ++ [c], ?_, ?_⟩
    · rw [← List.append_assoc]
      exact hg.addChannel hadd
    · exact List.forall_mem_append.mpr ⟨hwired, List.forall_mem_singleton.mpr (hc.trans hauto)⟩
  | error e g' =>
    rw [after_of_error hadd]
    rw [addChannel_eq] at hadd
    split at hadd
    · cases hadd
      exact ⟨wired, hg, hwired⟩
    · split at hadd <;> cases hadd <;> exact ⟨wired, hg.useHandle, hwired⟩

end Keeping

end Dataflow.Graph
