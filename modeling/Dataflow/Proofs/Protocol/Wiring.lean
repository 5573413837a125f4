import Dataflow.Proofs.Graph.Growth
import Dataflow.Proofs.Balance.Scaling
import Dataflow.Proofs.Monomial.RoundTrip
import Dataflow.Proofs.Protocol.Users

namespace Dataflow

open Dataflow.Action

theorem exists_of_mem_right {α β : Type} {R : α → β → Prop} {as : List α} {bs : List β}
    (h : List.Forall₂ R as bs) {b : β} (hb : b ∈ bs) : ∃ a ∈ as, R a b := by
  induction h with
  | nil => simp at hb
  | cons hab _ ih =>
    obtain rfl | hb := List.mem_cons.mp hb
    · exact ⟨_, List.mem_cons_self, hab⟩
    · obtain ⟨a, ha, hab⟩ := ih hb
      exact ⟨a, List.mem_cons_of_mem _ ha, hab⟩

/-- After `ensurePort` the port was in the graph before, or is new with the given rate. -/
theorem Graph.ensurePort_spec {g g' : Graph} {type name rate : String} {direction : Direction}
    (hg : g.WellFormed) (h : ensurePort type name direction rate g = .ok () g') :
    g'.actors = g.actors ∧ g'.channels = g.channels ∧
      ∀ p ∈ g'.ports, p ∈ g.ports ∨ g'.rateText? p = some rate := by
  obtain ⟨-, rfl⟩ | ⟨added, hadd⟩ := ensurePort_eq_ok h
  · exact ⟨rfl, rfl, fun p hp => .inl hp⟩
  · have hrate := rateText?_of_addPort hg hadd
    obtain ⟨-, -, rfl⟩ := addPort_eq_ok hadd
    refine ⟨rfl, rfl, fun p hp => ?_⟩
    obtain hp | hp := List.mem_append.mp hp
    · exact .inl hp
    · rw [List.mem_singleton.mp hp]
      exact .inr hrate

/-- A parameter that its period actor delivers to a user. -/
structure Delivery where
  parameter : String
  source : Actor
  user : Actor

/-- A channel over which a delivery is made, from a port that the graph `g` had not. -/
structure Delivers (table : Repetitions) (g g' : Graph) (d : Delivery) (c : Channel) : Prop where
  auto_eq : c.auto = true
  source_eq : c.source.actor = d.source
  target_eq : c.target.actor = d.user
  output_type : c.source.port.type = d.source.type
  output_name : ∃ k : Nat, c.source.port.name = s!"out{k}"
  output_new : g.hasPort c.source.port.type c.source.port.name = false
  output_mem : c.source.port ∈ g'.ports
  input_type : c.target.port.type = d.user.type
  input_name : c.target.port.name = s!"_{d.parameter}_in"
  rate : ∃ rate, g'.readRate c.source.port = .ok rate ∧
    (rate * table.count d.source == table.count d.user) = true

/-- A graph that differs from another by the channels of some deliveries, and by ports. A new port
is an output or takes one token at a time. -/
structure Wires (table : Repetitions) (g g' : Graph) (deliveries : List Delivery)
    (created : List Channel) : Prop where
  wellFormed : g'.WellFormed
  grows : g.Grows g'
  actors_eq : g'.actors = g.actors
  channels_eq : g'.channels = g.channels ++ created
  delivers : List.Forall₂ (Delivers table g g') deliveries created
  nodup_outputs : (created.map (·.source.port)).Nodup
  ports_new : ∀ p ∈ g'.ports, p ∈ g.ports ∨ p.direction = .output ∨ g'.rateText? p = some "1"

private theorem Delivers.mono {table : Repetitions} {g g' h h' : Graph} {d : Delivery} {c : Channel}
    (hc : Delivers table g g' d c) (hbefore : h.Grows g) (hafter : g'.Grows h') :
    Delivers table h h' d c := by
  obtain ⟨rate, hrate, heq⟩ := hc.rate
  refine { hc with
    output_new := ?_
    output_mem := hafter.ports.subset hc.output_mem
    rate := ⟨rate, hafter.readRate hrate, heq⟩ }
  rw [← Bool.not_eq_true]
  intro hport
  obtain ⟨p, hp, htype, hname⟩ := Graph.hasPort_iff.mp hport
  have hthere := Graph.hasPort_iff.mpr ⟨p, hbefore.ports.subset hp, htype, hname⟩
  rw [hc.output_new] at hthere
  cases hthere

namespace Wires

variable {table : Repetitions} {g g' g'' : Graph} {ds ds' : List Delivery} {cs cs' : List Channel}

theorem refl (hg : g.WellFormed) : Wires table g g [] [] where
  wellFormed := hg
  grows := .refl g
  actors_eq := rfl
  channels_eq := (List.append_nil _).symm
  delivers := .nil
  nodup_outputs := List.nodup_nil
  ports_new := fun _ hp => .inl hp

private theorem trans (h : Wires table g g' ds cs) (h' : Wires table g' g'' ds' cs') :
    Wires table g g'' (ds ++ ds') (cs ++ cs') where
  wellFormed := h'.wellFormed
  grows := h.grows.trans h'.grows
  actors_eq := h'.actors_eq.trans h.actors_eq
  channels_eq := by rw [h'.channels_eq, h.channels_eq, List.append_assoc]
  delivers := List.rel_append (h.delivers.imp fun _ _ hc => hc.mono (.refl g) h'.grows)
    (h'.delivers.imp fun _ _ hc => hc.mono h.grows (.refl g''))
  nodup_outputs := by
    rw [List.map_append, List.nodup_append]
    refine ⟨h.nodup_outputs, h'.nodup_outputs, fun p hp q hq => ?_⟩
    rintro rfl
    obtain ⟨c, hc, rfl⟩ := List.mem_map.mp hp
    obtain ⟨c', hc', heq⟩ := List.mem_map.mp hq
    obtain ⟨d, -, hd⟩ := exists_of_mem_right h.delivers hc
    obtain ⟨d', -, hd'⟩ := exists_of_mem_right h'.delivers hc'
    have hold : g'.hasPort c'.source.port.type c'.source.port.name = true :=
      Graph.hasPort_iff.mpr ⟨c'.source.port, heq ▸ hd.output_mem, rfl, rfl⟩
    rw [hd'.output_new] at hold
    cases hold
  ports_new := by
    intro p hp
    obtain hp | hp | hp := h'.ports_new p hp
    · obtain hp | hp | hp := h.ports_new p hp
      · exact .inl hp
      · exact .inr (.inl hp)
      · exact .inr (.inr (h'.grows.rateText? hp))
    · exact .inr (.inl hp)
    · exact .inr (.inr hp)

end Wires

/-- The quotient of two counts that was written is a rate by which one makes up for the other. -/
theorem Monomial.exists_rate {a b ratio : Monomial} {text : String} (ha : a.Legible)
    (hdiv : a.div b = .ok ratio) (hrender : ratio.render = .ok text) :
    ∃ rate, parse text = .ok rate ∧ (rate * b == a) = true := by
  obtain ⟨hle, rfl⟩ := div_eq_ok_iff.mp hdiv
  obtain ⟨rate, hrate, heq⟩ := parse_render (ha.strike b) hrender
  refine ⟨rate, hrate, beq_iff.mpr fun key => ?_⟩
  have hpower := beq_iff.mp heq key
  have hle := hle key
  rw [power_strike] at hpower
  rw [power_mul]
  omega

/-- What the three steps of a delivery come to. -/
theorem wires_of_steps {table : Repetitions} {parameter text : String} {index : Nat}
    {source user : Actor} {g g₁ g₂ g₃ : Graph} {p : Port} {c : Channel} {spec : Graph.ChannelSpec}
    (hg : g.WellFormed) (hsource : source ∈ g.actors) (huser : user ∈ g.actors)
    (hrate : ∃ rate, Monomial.parse text = .ok rate ∧
      (rate * table.count source == table.count user) = true) (hauto : spec.auto = true)
    (houtput : Graph.addPort source.type s!"out{index}" .output (some text) g = .ok p g₁)
    (hinput : Graph.ensurePort user.type s!"_{parameter}_in" .input "1" g₁ = .ok () g₂)
    (hchannel : Graph.addChannel (source.name, p.name) (user.name, s!"_{parameter}_in") spec g₂ =
      .ok c g₃) : Wires table g g₃ [⟨parameter, source, user⟩] [c] := by
  obtain ⟨hg₁, hgrows₁⟩ := Graph.addPort_grown.of_ok ⟨hg, .refl g⟩ houtput
  obtain ⟨hg₂, hgrows₂⟩ := Graph.ensurePort_grown.of_ok ⟨hg₁, .refl g₁⟩ hinput
  obtain ⟨hg₃, hgrows₃⟩ := Graph.addChannel_grown.of_ok ⟨hg₂, .refl g₂⟩ hchannel
  obtain ⟨hactors, hchannels, hports⟩ := Graph.ensurePort_spec hg₁ hinput
  have hp := Graph.rateText?_of_addPort hg houtput
  obtain ⟨hnew, hpdef, hg₁def⟩ := Graph.addPort_eq_ok houtput
  obtain ⟨hsourceEnd, htargetEnd, hautoEq, hg₃def⟩ := Graph.addChannel_eq_ok hchannel
  obtain ⟨hsourceFits, hsourceName, hportName⟩ := (hg₂.endpoint_eq_ok_iff).mp hsourceEnd
  obtain ⟨htargetFits, htargetName, hinputName⟩ := (hg₂.endpoint_eq_ok_iff).mp htargetEnd
  have hactors' : g₂.actors = g.actors := by rw [hactors, hg₁def]
  have hsourceEq : c.source.actor = source :=
    hg₂.actor_eq_of_name hsourceFits.actor_mem (hactors' ▸ hsource) hsourceName
  have htargetEq : c.target.actor = user :=
    hg₂.actor_eq_of_name htargetFits.actor_mem (hactors' ▸ huser) htargetName
  have hpmem : p ∈ g₁.ports := by
    rw [hg₁def]
    exact List.mem_append_right _ (List.mem_singleton_self p)
  have hportEq : c.source.port = p := by
    refine hg₂.port_eq_of_name hsourceFits.port_mem (hgrows₂.ports.subset hpmem) ?_ hportName
    rw [hsourceFits.type_eq, hsourceEq, hpdef]
  have hchanged : g₃.ports = g₂.ports ∧ g₃.rates = g₂.rates := by
    rw [hg₃def]
    exact ⟨rfl, rfl⟩
  refine ⟨hg₃, hgrows₁.trans (hgrows₂.trans hgrows₃), ?_, ?_, .cons ?_ .nil, by simp, ?_⟩
  · rw [hg₃def]
    exact hactors'
  · rw [hg₃def, hchannels, hg₁def]
  · obtain ⟨rate, hparse, heq⟩ := hrate
    exact {
      auto_eq := hautoEq.trans hauto
      source_eq := hsourceEq
      target_eq := htargetEq
      output_type := by rw [hportEq, hpdef]
      output_name := ⟨index, by rw [hportEq, hpdef]⟩
      output_new := by rw [hportEq, hpdef]; exact hnew
      output_mem := hportEq ▸ hgrows₃.ports.subset (hgrows₂.ports.subset hpmem)
      input_type := htargetFits.type_eq.trans (congrArg Actor.type htargetEq)
      input_name := hinputName
      rate := by
        refine ⟨rate, ?_, heq⟩
        rw [hportEq, Graph.readRate, hgrows₃.rateText? (hgrows₂.rateText? hp)]
        exact hparse }
  · intro q hq
    rw [hchanged.1] at hq
    rw [Graph.rateText?, hchanged.2]
    obtain hq | hq := hports q hq
    · rw [hg₁def] at hq
      obtain hq | hq := List.mem_append.mp hq
      · exact .inl hq
      · rw [List.mem_singleton.mp hq, hpdef]
        exact .inr (.inl rfl)
    · exact .inr (.inr hq)

namespace Protocol

/-- A user of a parameter that is neither its period actor nor the actor that sets it. -/
def isDue (p : Protocol) (parameter : String) (source user : Actor) : Bool :=
  !decide (user.id = source.id ∨ (p.modifiedBy user).contains parameter)

/-- The deliveries of a parameter. -/
def dueFor (p : Protocol) (parameter : String) : List Delivery :=
  match p.source? parameter with
  | none => []
  | some source =>
    ((p.usersOf parameter).filter (p.isDue parameter source)).map (⟨parameter, source, ·⟩)

/-- The deliveries of all parameters. -/
def due (p : Protocol) : List Delivery :=
  p.usedParameters.flatMap p.dueFor

private theorem mem_dueFor_iff {p : Protocol} {d : Delivery} {parameter : String} :
    d ∈ p.dueFor parameter ↔ d.parameter = parameter ∧ p.source? d.parameter = some d.source ∧
      d.user ∈ p.usersOf d.parameter ∧ d.user.id ≠ d.source.id ∧
      d.parameter ∉ p.modifiedBy d.user := by
  obtain ⟨q, source, user⟩ := d
  rw [dueFor]
  cases hsource : p.source? parameter with
  | none =>
    simp only [List.not_mem_nil, false_iff, not_and]
    rintro rfl hsome
    rw [hsource] at hsome
    cases hsome
  | some found =>
    simp only [List.mem_map, List.mem_filter, Delivery.mk.injEq, isDue, Bool.not_eq_true',
      decide_eq_false_iff_not, not_or, List.contains_iff_mem]
    constructor
    · rintro ⟨_, ⟨huser, hdue⟩, rfl, rfl, rfl⟩
      exact ⟨rfl, hsource, huser, hdue⟩
    · rintro ⟨rfl, hsome, huser, hdue⟩
      rw [hsource, Option.some.injEq] at hsome
      subst hsome
      exact ⟨user, ⟨huser, hdue⟩, rfl, rfl, rfl⟩

theorem source?_of_mem_due {p : Protocol} {d : Delivery} (h : d ∈ p.due) :
    p.source? d.parameter = some d.source := by
  obtain ⟨parameter, -, hd⟩ := List.mem_flatMap.mp h
  exact (mem_dueFor_iff.mp hd).2.1

theorem mem_due_iff {p : Protocol} {d : Delivery} (h : p.uses.InStep) :
    d ∈ p.due ↔ p.source? d.parameter = some d.source ∧ d.user ∈ p.usersOf d.parameter ∧
      d.user.id ≠ d.source.id ∧ d.parameter ∉ p.modifiedBy d.user := by
  simp only [due, List.mem_flatMap, mem_dueFor_iff, mem_usedParameters_iff h]
  constructor
  · rintro ⟨_, -, -, h⟩
    exact h
  · intro h
    exact ⟨d.parameter, List.ne_nil_of_mem h.2.1, rfl, h⟩

/-- No delivery is made twice. -/
theorem nodup_due {p : Protocol} (huses : p.uses.InStep)
    (h : ∀ parameter, (p.usersOf parameter).Nodup) : p.due.Nodup := by
  refine List.nodup_flatMap.mpr ⟨fun parameter _ => ?_, ?_⟩
  · rw [dueFor]
    split
    · exact List.nodup_nil
    · exact ((h parameter).filter _).map fun _ _ heq => (Delivery.mk.inj heq).2.2
  · refine huses.nodup_parameters.imp fun hne d hd hd' => hne ?_
    exact (mem_dueFor_iff.mp hd).1.symm.trans (mem_dueFor_iff.mp hd').1

end Protocol

namespace Workspace

variable {table : Repetitions} {parameter : String} {source : Actor} {w w' : Workspace}

private theorem connectUser_wires {index : Nat} {user : Actor} {c : Channel}
    (hg : w.graph.WellFormed) (hsource : source ∈ w.graph.actors) (huser : user ∈ w.graph.actors)
    (hlegible : (table.count user).Legible)
    (h : connectUser table parameter source (table.count source) index user w = .ok c w') :
    Wires table w.graph w'.graph [⟨parameter, source, user⟩] [c] ∧ w'.protocol = w.protocol := by
  obtain ⟨count, _, hcount, h⟩ := bind_eq_ok_iff.mp h
  obtain ⟨hget, rfl⟩ := lift_eq_ok_iff.mp hcount
  obtain rfl := Repetitions.count_of_get_eq_ok hget
  obtain ⟨ratio, _, hratio, h⟩ := bind_eq_ok_iff.mp h
  obtain ⟨hdiv, rfl⟩ := lift_eq_ok_iff.mp hratio
  obtain ⟨text, _, htext, h⟩ := bind_eq_ok_iff.mp h
  obtain ⟨hrender, rfl⟩ := lift_eq_ok_iff.mp htext
  obtain ⟨output, _, hstep, h⟩ := bind_eq_ok_iff.mp h
  obtain ⟨g₁, houtput, rfl⟩ := within_eq_ok_iff.mp hstep
  obtain ⟨_, _, hstep', h⟩ := bind_eq_ok_iff.mp h
  obtain ⟨g₂, hinput, rfl⟩ := within_eq_ok_iff.mp hstep'
  obtain ⟨g₃, hchannel, rfl⟩ := within_eq_ok_iff.mp h
  refine ⟨?_, rfl⟩
  exact wires_of_steps hg hsource huser (Monomial.exists_rate hlegible hdiv hrender) rfl houtput
    hinput hchannel

private theorem connectUsers_wires {index : Nat} {users : List Actor} {created : List Channel}
    (hg : w.graph.WellFormed) (hsource : source ∈ w.graph.actors)
    (husers : ∀ user ∈ users, user ∈ w.graph.actors ∧ (table.count user).Legible)
    (h : connectUsers table parameter source (table.count source) index users w =
      .ok created w') :
    Wires table w.graph w'.graph
        ((users.filter (w.protocol.isDue parameter source)).map (⟨parameter, source, ·⟩)) created ∧
      w'.protocol = w.protocol := by
  induction users generalizing index w created with
  | nil =>
    cases h
    exact ⟨.refl hg, rfl⟩
  | cons user users ih =>
    obtain ⟨⟨huser, hlegible⟩, hrest⟩ := List.forall_mem_cons.mp husers
    obtain ⟨_, _, hget, h⟩ := bind_eq_ok_iff.mp h
    cases hget
    by_cases hskip : user.id = source.id ∨ (w.protocol.modifiedBy user).contains parameter
    · rw [if_pos hskip] at h
      have hdue : w.protocol.isDue parameter source user = false := by
        rw [Protocol.isDue, decide_eq_true hskip, Bool.not_true]
      rw [List.filter_cons_of_neg (by simp [hdue])]
      exact ih hg hsource hrest h
    · rw [if_neg hskip] at h
      have hdue : w.protocol.isDue parameter source user = true := by
        rw [Protocol.isDue, decide_eq_false hskip, Bool.not_false]
      obtain ⟨c, w₁, hstep, h⟩ := bind_eq_ok_iff.mp h
      obtain ⟨cs, w₂, hothers, h⟩ := bind_eq_ok_iff.mp h
      cases h
      obtain ⟨hwires, hprotocol⟩ := connectUser_wires hg hsource huser hlegible hstep
      obtain ⟨hmore, hprotocol'⟩ := ih hwires.wellFormed (hwires.actors_eq ▸ hsource)
        (hwires.actors_eq ▸ hrest) hothers
      rw [hprotocol] at hmore hprotocol'
      rw [List.filter_cons_of_pos hdue]
      exact ⟨hwires.trans hmore, hprotocol'⟩

/-- Period actors and users are actors of the graph, whose counts can be read back. -/
structure Deliverable (table : Repetitions) (p : Protocol) (g : Graph) : Prop where
  source_mem : ∀ parameter, ∀ source ∈ p.source? parameter, source ∈ g.actors
  user_mem : ∀ parameter, ∀ user ∈ p.usersOf parameter, user ∈ g.actors
  legible : ∀ a ∈ g.actors, (table.count a).Legible

private theorem connectParameter_wires {created : List Channel} (hg : w.graph.WellFormed)
    (hw : Deliverable table w.protocol w.graph)
    (h : connectParameter table parameter w = .ok created w') :
    Wires table w.graph w'.graph (w.protocol.dueFor parameter) created ∧
      w'.protocol = w.protocol := by
  obtain ⟨_, _, hget, h⟩ := bind_eq_ok_iff.mp h
  cases hget
  rw [Protocol.dueFor]
  cases hsource : w.protocol.source? parameter with
  | none =>
    simp only [hsource] at h
    cases h
    exact ⟨.refl hg, rfl⟩
  | some source =>
    simp only [hsource] at h
    obtain ⟨count, _, hcount, h⟩ := bind_eq_ok_iff.mp h
    obtain ⟨hget, rfl⟩ := lift_eq_ok_iff.mp hcount
    obtain rfl := Repetitions.count_of_get_eq_ok hget
    refine connectUsers_wires hg (hw.source_mem _ _ hsource) (fun user huser => ?_) h
    have hmem := hw.user_mem _ _ huser
    exact ⟨hmem, hw.legible user hmem⟩

/-- How a workspace stands when the parameters `done` were delivered. -/
structure Wiring (table : Repetitions) (p : Protocol) (g : Graph) (done : List String)
    (batches : List (List Channel)) (w : Workspace) : Prop where
  wires : Wires table g w.graph (done.flatMap p.dueFor) batches.flatten
  protocol_eq : w.protocol = { p with connected := true }

private theorem Wiring.deliverable {p : Protocol} {g : Graph} {done : List String}
    {batches : List (List Channel)} (h : Wiring table p g done batches w)
    (hp : Deliverable table p g) : Deliverable table w.protocol w.graph := by
  rw [h.protocol_eq]
  constructor
  · exact fun parameter source hsource =>
      h.wires.actors_eq ▸ hp.source_mem parameter source hsource
  · exact fun parameter user huser => h.wires.actors_eq ▸ hp.user_mem parameter user huser
  · exact fun a ha => hp.legible a (h.wires.actors_eq ▸ ha)

theorem connectSources_wires {created : List Channel} (hg : w.graph.WellFormed)
    (hw : Deliverable table w.protocol w.graph)
    (h : connectSources table w = .ok created w') :
    Wires table w.graph w'.graph w.protocol.due created ∧
      w'.protocol = { w.protocol with connected := true } := by
  obtain ⟨_, _, hget, h⟩ := bind_eq_ok_iff.mp h
  cases hget
  cases hconnected : w.protocol.connected with
  | true =>
    simp only [hconnected] at h
    obtain ⟨_, _, hthrow, -⟩ := bind_eq_ok_iff.mp h
    cases hthrow
  | false =>
    simp only [hconnected] at h
    obtain ⟨_, _, hupdate, h⟩ := bind_eq_ok_iff.mp h
    cases hupdate
    obtain ⟨_, _, hget, h⟩ := bind_eq_ok_iff.mp h
    cases hget
    obtain ⟨batches, w₁, hbatches, h⟩ := bind_eq_ok_iff.mp h
    obtain ⟨_, _, hnote, h⟩ := bind_eq_ok_iff.mp h
    cases hnote
    cases h
    have hstart : Wiring table w.protocol w.graph [] []
        { w with protocol := { w.protocol with connected := true } } :=
      ⟨.refl hg, rfl⟩
    have hend := mapM_keeps (I := Wiring table w.protocol w.graph)
      (fun done parameter later batches w₁ batch w₂ _ hdone hstep => ?_)
      (List.nil_append _) hstart hbatches
    · exact ⟨hend.wires, hend.protocol_eq⟩
    obtain ⟨hmore, hprotocol⟩ :=
      connectParameter_wires hdone.wires.wellFormed (hdone.deliverable hw) hstep
    rw [hdone.protocol_eq] at hmore hprotocol
    refine ⟨?_, hprotocol⟩
    rw [List.flatMap_append, List.flatMap_singleton, List.flatten_append, List.flatten_singleton]
    exact hdone.wires.trans hmore

end Workspace

end Dataflow
