import Dataflow.Proofs.Except
import Dataflow.Proofs.Graph.Preservation
import Dataflow.Proofs.Graph.Rates

namespace Dataflow.Graph

open Dataflow.Action

/-- Everything in `g` is in `g'` too, before anything that is new. -/
structure Grows (g g' : Graph) : Prop where
  actors : g.actors <+: g'.actors
  ports : g.ports <+: g'.ports
  rates : g.rates <+: g'.rates
  channels : g.channels <+: g'.channels
  modifiers_eq : g'.modifiers = g.modifiers

namespace Grows

variable {g g' g'' : Graph}

theorem refl (g : Graph) : Grows g g :=
  ⟨List.prefix_rfl, List.prefix_rfl, List.prefix_rfl, List.prefix_rfl, rfl⟩

theorem trans (h : Grows g g') (h' : Grows g' g'') : Grows g g'' where
  actors := h.actors.trans h'.actors
  ports := h.ports.trans h'.ports
  rates := h.rates.trans h'.rates
  channels := h.channels.trans h'.channels
  modifiers_eq := h'.modifiers_eq.trans h.modifiers_eq

theorem rateText? (h : Grows g g') {p : Port} {text : String} (hp : g.rateText? p = some text) :
    g'.rateText? p = some text := by
  obtain ⟨more, hmore⟩ := h.rates
  rw [Graph.rateText?, ← hmore]
  exact HasRate.append hp more

theorem readRate (h : Grows g g') {p : Port} {rate : Monomial} (hp : g.readRate p = .ok rate) :
    g'.readRate p = .ok rate := by
  unfold Graph.readRate at hp ⊢
  cases hrate : g.rateText? p with
  | none => simp [hrate] at hp
  | some text => simpa [hrate, h.rateText? hrate] using hp

end Grows

section Names

variable {g : Graph}

theorem hasPort_iff {type name : String} :
    g.hasPort type name = true ↔ ∃ p ∈ g.ports, p.type = type ∧ p.name = name := by
  simp [hasPort]

theorem WellFormed.actor_eq_of_name (hg : g.WellFormed) {a b : Actor} (ha : a ∈ g.actors)
    (hb : b ∈ g.actors) (h : a.name = b.name) : a = b :=
  List.inj_on_of_nodup_map hg.nodup_names ha hb h

theorem WellFormed.port_eq_of_name (hg : g.WellFormed) {p q : Port} (hp : p ∈ g.ports)
    (hq : q ∈ g.ports) (htype : p.type = q.type) (hname : p.name = q.name) : p = q :=
  List.inj_on_of_nodup_map hg.nodup_ports hp hq (Prod.ext htype hname)

/-- An actor of a well-formed graph is the one of its name. -/
theorem WellFormed.actorNamed_eq (hg : g.WellFormed) {a : Actor} (ha : a ∈ g.actors) :
    g.actorNamed a.name = .ok a :=
  hg.actorNamed_eq_ok_iff.mpr ⟨ha, rfl⟩

/-- A port of a well-formed graph is the one of its type and name. -/
theorem WellFormed.portNamed_eq (hg : g.WellFormed) {p : Port} (hp : p ∈ g.ports) :
    g.portNamed p.type p.name = .ok p :=
  hg.portNamed_eq_ok_iff.mpr ⟨hp, rfl, rfl⟩

theorem WellFormed.endpoint_eq_ok_iff (hg : g.WellFormed) {place : String × String}
    {direction : Direction} {e : Endpoint} :
    g.endpoint place direction = .ok e ↔
      e.FitsIn g direction ∧ e.actor.name = place.1 ∧ e.port.name = place.2 := by
  constructor
  · intro h
    refine ⟨Graph.endpoint_eq_ok h, ?_⟩
    obtain ⟨a, ha, h⟩ := Except.bind_eq_ok_iff.mp h
    obtain ⟨p, hp, h⟩ := Except.bind_eq_ok_iff.mp h
    split at h
    · cases h
      exact ⟨(actorNamed_eq_ok ha).2, (portNamed_eq_ok hp).2.2⟩
    · cases h
  · rintro ⟨hfits, hactor, hport⟩
    have ha := hg.actorNamed_eq hfits.actor_mem
    have hp := hg.portNamed_eq hfits.port_mem
    rw [hactor] at ha
    rw [hport, hfits.type_eq] at hp
    simp [endpoint, ha, hp, hfits.direction_eq, bind, Except.bind, pure, Except.pure]

end Names

section Additions

variable {g g' : Graph}

theorem addActor_eq_ok {name type : String} {execTime : Int} {auto : Bool} {a : Actor}
    (h : addActor name type execTime auto g = .ok a g') :
    a = ⟨g.nextHandle, name, type, execTime, auto⟩ ∧
      g' = { g with
        actors := g.actors ++ [a]
        types := if g.types.contains type then g.types else g.types ++ [type]
        nextHandle := g.nextHandle + 1 } := by
  rw [addActor_eq] at h
  split at h
  · cases h
  · cases h
    exact ⟨rfl, rfl⟩

theorem addPort_eq_ok {type name : String} {direction : Direction} {rate : Option String} {p : Port}
    (h : addPort type name direction rate g = .ok p g') :
    g.hasPort type name = false ∧ p = ⟨g.nextHandle, type, name, direction⟩ ∧
      g' = { g with
        ports := g.ports ++ [p]
        rates := g.rates ++ rate.toList.map (p.id, ·)
        nextHandle := g.nextHandle + 1 } := by
  rw [addPort_eq] at h
  split at h
  · cases h
  · rename_i hname
    cases h
    exact ⟨by simpa using hname, rfl, rfl⟩

theorem addChannel_eq_ok {source target : String × String} {spec : ChannelSpec} {c : Channel}
    (h : addChannel source target spec g = .ok c g') :
    g.endpoint source .output = .ok c.source ∧ g.endpoint target .input = .ok c.target ∧
      c.auto = spec.auto ∧
      g' = { g with
        channels := g.channels ++ [c]
        linked := g.linked ++ [c]
        nextHandle := g.nextHandle + 1 } := by
  rw [addChannel_eq] at h
  split at h
  · cases h
  · split at h
    · rename_i a b hsource htarget
      cases h
      exact ⟨hsource, htarget, rfl, rfl⟩
    · cases h
    · cases h

theorem ensurePort_eq_ok {type name : String} {direction : Direction} {rate : String}
    (h : ensurePort type name direction rate g = .ok () g') :
    g.hasPort type name = true ∧ g' = g ∨
      ∃ p, addPort type name direction (some rate) g = .ok p g' := by
  obtain ⟨_, _, hget, h⟩ := bind_eq_ok_iff.mp h
  cases hget
  cases hport : g.hasPort type name with
  | true =>
    simp only [hport] at h
    cases h
    exact .inl ⟨rfl, rfl⟩
  | false =>
    simp only [hport] at h
    obtain ⟨p, _, hadd, h⟩ := bind_eq_ok_iff.mp h
    cases h
    exact .inr ⟨p, hadd⟩

/-- The rate of a port that was just added. -/
theorem rateText?_of_addPort (hg : g.WellFormed) {type name : String} {direction : Direction}
    {rate : String} {p : Port} (h : addPort type name direction (some rate) g = .ok p g') :
    g'.rateText? p = some rate := by
  obtain ⟨-, hp, rfl⟩ := addPort_eq_ok h
  have hnew : g.rates.lookup p.id = none := by
    apply Assoc.lookup_eq_none_of_notMem
    intro hmem
    obtain ⟨entry, hentry, heq⟩ := List.mem_map.mp hmem
    have hlt := hg.port_id_lt (hg.rates_at_ports entry hentry)
    rw [heq, hp] at hlt
    exact Nat.lt_irrefl _ hlt
  simp [Graph.rateText?, List.lookup_append, hnew]

end Additions

section Grown

variable {origin : Graph}

/-- A graph that is still in order and has lost nothing. -/
def Grown (origin g : Graph) : Prop :=
  g.WellFormed ∧ Grows origin g

private theorem grown_of_changes {α : Type} {action : Action Graph α} {g : Graph}
    (hchanges : action.Keeps (Changes g)) (hgrows : Grows g (action.after g))
    (hg : Grown origin g) : Grown origin (action.after g) :=
  ⟨(hchanges g .refl).wellFormed hg.1, hg.2.trans hgrows⟩

theorem addActor_grown {name type : String} {execTime : Int} {auto : Bool} :
    (addActor name type execTime auto).Keeps (Grown origin) := by
  intro g hg
  refine grown_of_changes addActor_changes ?_ hg
  unfold after
  rw [addActor_eq]
  cases g.hasActor name with
  | true => exact .refl g
  | false => exact ⟨List.prefix_append .., List.prefix_rfl, List.prefix_rfl, List.prefix_rfl, rfl⟩

theorem addPort_grown {type name : String} {direction : Direction} {rate : Option String} :
    (addPort type name direction rate).Keeps (Grown origin) := by
  intro g hg
  refine grown_of_changes addPort_changes ?_ hg
  unfold after
  rw [addPort_eq]
  cases g.hasPort type name with
  | true => exact .refl g
  | false =>
    exact ⟨List.prefix_rfl, List.prefix_append .., List.prefix_append .., List.prefix_rfl, rfl⟩

theorem addChannel_grown {source target : String × String} {spec : ChannelSpec} :
    (addChannel source target spec).Keeps (Grown origin) := by
  intro g hg
  refine grown_of_changes addChannel_changes ?_ hg
  unfold after
  rw [addChannel_eq]
  by_cases htokens : spec.initialTokens < 0
  · rw [if_pos htokens]
    exact .refl g
  · rw [if_neg htokens]
    cases g.endpoint source .output with
    | error e => exact ⟨List.prefix_rfl, List.prefix_rfl, List.prefix_rfl, List.prefix_rfl, rfl⟩
    | ok a =>
      cases g.endpoint target .input with
      | error e => exact ⟨List.prefix_rfl, List.prefix_rfl, List.prefix_rfl, List.prefix_rfl, rfl⟩
      | ok b =>
        exact ⟨List.prefix_rfl, List.prefix_rfl, List.prefix_rfl, List.prefix_append .., rfl⟩

theorem ensurePort_grown {type name : String} {direction : Direction} {rate : String} :
    (ensurePort type name direction rate).Keeps (Grown origin) := by
  unfold ensurePort
  apply keeps_get_bind
  intro g hg
  split
  · exact addPort_grown.bind (fun _ => keeps_pure _) g hg
  · exact hg

end Grown

end Dataflow.Graph
