import Dataflow.Proofs.Graph.Growth
import Dataflow.Proofs.Graph.Tables

namespace Dataflow.Graph

open Dataflow.Action

/-- A channel that has an actor at one of its ends, or at both. -/
def EndsAt (a : Actor) (c : Channel) : Prop :=
  c.source.actor = a ∨ c.target.actor = a

instance (a : Actor) : DecidablePred (EndsAt a) :=
  fun _ => inferInstanceAs (Decidable (_ ∨ _))

/-- The graph `g'` is the graph `g` without an actor and the channels that end at it. -/
structure Lacks (g g' : Graph) (a : Actor) : Prop where
  actors_eq : g'.actors = g.actors.erase a
  channels_eq : g'.channels = g.channels.filter (¬ EndsAt a ·)
  links_eq : ∀ b direction,
    g'.links b direction = (g.links b direction).filter (¬ EndsAt a ·.channel)
  name_eq : g'.name = g.name
  ports_eq : g'.ports = g.ports
  rates_eq : g'.rates = g.rates
  modifiers_eq : g'.modifiers = g.modifiers
  types_eq : g'.types = g.types
  nextHandle_eq : g'.nextHandle = g.nextHandle

private theorem WellFormed.decide_not_endsAt {g : Graph} (hg : g.WellFormed) {a : Actor}
    (ha : a ∈ g.actors) {c : Channel} (hc : c ∈ g.channels) :
    (c.source.actor.id != a.id && c.target.actor.id != a.id) = decide (¬ EndsAt a c) := by
  have hend (direction : Direction) :
      (c.endpoint direction).actor.id = a.id ↔ (c.endpoint direction).actor = a :=
    ⟨hg.actor_eq_of_id (hg.joins c hc direction).actor_mem ha, congrArg Actor.id⟩
  have hsource : c.source.actor.id = a.id ↔ c.source.actor = a := hend .output
  have htarget : c.target.actor.id = a.id ↔ c.target.actor = a := hend .input
  rw [Bool.eq_iff_iff, Bool.and_eq_true, bne_iff_ne, bne_iff_ne, decide_eq_true_iff, EndsAt, not_or,
    ne_eq, ne_eq, hsource, htarget]

private theorem WellFormed.lacks_removeActor {g : Graph} (hg : g.WellFormed) {a : Actor}
    (ha : a ∈ g.actors) : Lacks g (g.removeActor a) a := by
  rw [hg.removeActor_eq]
  refine {
    actors_eq := hg.filter_id_ne_eq_erase ha
    channels_eq := List.filter_congr fun c hc => hg.decide_not_endsAt ha hc
    links_eq := fun b direction => ?_
    name_eq := rfl
    ports_eq := rfl
    rates_eq := rfl
    modifiers_eq := rfl
    types_eq := rfl
    nextHandle_eq := rfl }
  simp only [links, List.filter_map, List.filter_filter]
  congr 1
  refine List.filter_congr fun c hc => ?_
  rw [hg.decide_not_endsAt ha (hg.linked_eq ▸ hc), Bool.and_comm]
  rfl

private theorem id_of_addChannel {g g' : Graph} {source target : String × String}
    {spec : ChannelSpec}
    {c : Channel} (h : addChannel source target spec g = .ok c g') : c.id = g.nextHandle := by
  rw [addChannel_eq] at h
  split at h
  · cases h
  · split at h <;> cases h
    rfl

/-- A channel that was just added is the only one of its handle, so its removal undoes the addition.
Only the handle is not given back. -/
theorem WellFormed.removeChannel_of_addChannel {g g' : Graph} (hg : g.WellFormed)
    {source target : String × String} {spec : ChannelSpec} {c : Channel}
    (h : addChannel source target spec g = .ok c g') :
    g'.removeChannel c.id = { g with nextHandle := g.nextHandle + 1 } := by
  obtain ⟨-, -, -, rfl⟩ := addChannel_eq_ok h
  have hother : ∀ d ∈ g.channels, d.id ≠ c.id := by
    intro d hd
    rw [id_of_addChannel h]
    exact Nat.ne_of_lt (hg.channel_id_lt (List.mem_map_of_mem hd))
  have hback : (g.channels ++ [c]).filter (·.id != c.id) = g.channels := by
    rw [List.filter_append, filter_id_ne_eq_self hother]
    simp
  rw [removeChannel_eq, hg.linked_eq, hback, ← hg.linked_eq]

/-- `removeActor` succeeds for every actor of a graph that can be built, on the graph and step by
step on its tables. It removes the actor and all channels that end at it and changes nothing else.
`removeChannel` right after `addChannel` restores the graph, except for the handle that was used. -/
theorem removal_exact {g : Graph} (hg : g.Reachable) :
    (∀ a ∈ g.actors,
      (Operation.removeActor a.name).perform g = .ok .done (g.removeActor a) ∧
      g.tables.removeActor a = some (g.removeActor a).tables ∧
      Lacks g (g.removeActor a) a) ∧
    ∀ source target spec c g', addChannel source target spec g = .ok c g' →
      (Operation.removeChannel c.id).perform g' =
        .ok .done { g with nextHandle := g.nextHandle + 1 } ∧
      g'.tables.removeChannel c = some g.tables := by
  have hwell := hg.wellFormed
  constructor
  · intro a ha
    refine ⟨?_, hwell.tables_removeActor ha, hwell.lacks_removeActor ha⟩
    rw [Operation.perform, get_bind_apply, hwell.actorNamed_eq ha]
    rfl
  · intro source target spec c g' hadd
    have hwell' : g'.WellFormed := (addChannel_changes.of_ok .refl hadd).wellFormed hwell
    have hback := hwell.removeChannel_of_addChannel hadd
    have hmem : c ∈ g'.channels := by
      obtain ⟨-, -, -, rfl⟩ := addChannel_eq_ok hadd
      exact List.mem_append_right _ List.mem_cons_self
    constructor
    · rw [← hback]
      rfl
    · rw [hwell'.tables_removeChannel (hwell'.identifies hmem), hback]
      rfl

/-- Three actors of one type. Two of them have self-loops, channels side by side and channels both
ways. -/
def tangled : Graph :=
  performAll (.empty none)
    [ .addActor "a" "A" 0 false, .addActor "b" "A" 0 false, .addActor "c" "A" 0 false,
      .addPort "A" "out" .output (some "1"), .addPort "A" "in" .input (some "1"),
      .addChannel ("a", "out") ("a", "in") {}, .addChannel ("a", "out") ("b", "in") {},
      .addChannel ("a", "out") ("b", "in") {}, .addChannel ("b", "out") ("a", "in") {},
      .addChannel ("b", "out") ("b", "in") {}, .addChannel ("a", "out") ("a", "in") {},
      .addChannel ("b", "out") ("c", "in") {} ]

/-- Of seven channels the two are left that have the actor at neither end. -/
theorem removal_exact_tangled :
    tangled.Reachable ∧ (⟨0, "a", "A", 0, false⟩ : Actor) ∈ tangled.actors ∧
      (∃ g', (Operation.removeActor "a").perform tangled = .ok .done g' ∧
        tangled.tables.removeActor ⟨0, "a", "A", 0, false⟩ = some g'.tables ∧
        Lacks tangled g' ⟨0, "a", "A", 0, false⟩ ∧ g'.channels.map (·.id) = [9, 11]) ∧
      ∃ c g', addChannel ("a", "out") ("a", "in") {} tangled = .ok c g' ∧
        (Operation.removeChannel c.id).perform g' = .ok .done { tangled with nextHandle := 13 } ∧
        g'.tables.removeChannel c = some tangled.tables := by
  have hreachable : tangled.Reachable := (Reachable.empty none).performAll _
  have hactor : (⟨0, "a", "A", 0, false⟩ : Actor) ∈ tangled.actors := by decide +kernel
  have hadd : ∃ c g', addChannel ("a", "out") ("a", "in") {} tangled = .ok c g' := ⟨_, _, rfl⟩
  obtain ⟨hremoved, hrestored⟩ := removal_exact hreachable
  obtain ⟨hperform, htables, hlacks⟩ := hremoved _ hactor
  obtain ⟨c, g', hadd⟩ := hadd
  obtain ⟨hback, hold⟩ := hrestored _ _ _ c g' hadd
  refine ⟨hreachable, hactor, ⟨_, hperform, htables, hlacks, ?_⟩, c, g', hadd, hback, hold⟩
  decide +kernel

end Dataflow.Graph
