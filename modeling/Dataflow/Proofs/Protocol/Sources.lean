import Dataflow.Proofs.Graph.Growth
import Dataflow.Proofs.Workspace
import Dataflow.Protocol.Sources

namespace Dataflow

open Dataflow.Action

private theorem RateCache.Agrees.mono {cache : RateCache} {g g' : Graph} (h : cache.Agrees g)
    (hgrows : g.Grows g') : cache.Agrees g' := by
  intro handle m hlookup
  obtain ⟨text, hrate, hparse⟩ := h handle m hlookup
  obtain ⟨more, hmore⟩ := hgrows.rates
  exact ⟨text, hmore ▸ Graph.HasRate.append hrate more, hparse⟩

/-- An actor feeds a period actor of a parameter with one value each time it fires. -/
structure Feeds (g : Graph) (feeder : Actor) (parameter : String) (source : Actor) : Prop where
  source_mem : source ∈ g.actors
  type_eq : source.type = periodType parameter
  exists_channel : ∃ c ∈ g.channels, c.source.actor = feeder ∧ c.target.actor = source ∧
    g.rateText? c.source.port = some "1"

theorem Feeds.feeder_mem {g : Graph} {feeder source : Actor} {parameter : String}
    (h : Feeds g feeder parameter source) (hg : g.WellFormed) : feeder ∈ g.actors := by
  obtain ⟨c, hc, rfl, -, -⟩ := h.exists_channel
  exact (hg.joins c hc .output).actor_mem

private theorem Feeds.mono {g g' : Graph} {feeder source : Actor} {parameter : String}
    (h : Feeds g feeder parameter source) (hgrows : g.Grows g') :
    Feeds g' feeder parameter source := by
  obtain ⟨c, hc, hsource, htarget, hrate⟩ := h.exists_channel
  exact ⟨hgrows.actors.subset h.source_mem, h.type_eq, c, hgrows.channels.subset hc, hsource,
    htarget, hgrows.rateText? hrate⟩

namespace Protocol

/-- Every period actor is noted with the actor that feeds it. -/
structure Fed (p : Protocol) (g : Graph) : Prop where
  feeds : ∀ entry ∈ p.sources, ∀ source ∈ entry.2, ∃ feeder,
    p.feeders.lookup source.id = some feeder ∧ Feeds g feeder entry.1 source
  known : ∀ entry ∈ p.feeders, entry.1 ∈ g.actors.map (·.id)

private theorem Fed.mono {p : Protocol} {g g' : Graph} (h : p.Fed g) (hgrows : g.Grows g') :
    p.Fed g' where
  feeds := by
    intro entry hentry source hsource
    obtain ⟨feeder, hlookup, hfeeds⟩ := h.feeds entry hentry source hsource
    exact ⟨feeder, hlookup, hfeeds.mono hgrows⟩
  known := by
    intro entry hentry
    obtain ⟨a, ha, heq⟩ := List.mem_map.mp (h.known entry hentry)
    exact heq ▸ List.mem_map_of_mem (hgrows.actors.subset ha)

theorem Fed.congr {p p' : Protocol} {g : Graph} (h : p.Fed g) (hsources : p'.sources = p.sources)
    (hfeeders : p'.feeders = p.feeders) : p'.Fed g where
  feeds := by
    rw [hsources, hfeeders]
    exact h.feeds
  known := by
    rw [hfeeders]
    exact h.known

/-- Nothing is known but where the period actors are. -/
structure Unexplored (p : Protocol) : Prop where
  environment_eq : p.environment = []
  modified_eq : p.modified = []
  uses_eq : p.uses = .empty
  connected_eq : p.connected = false

end Protocol

namespace Workspace

/-- How a workspace stands when the period actors of the modifiers `done` were added, and nothing
else was done. -/
structure Sourced (origin : Graph) (done : List Modifier) (w : Workspace) : Prop where
  grown : origin.Grown w.graph
  ports_new : ∀ p ∈ w.graph.ports, p ∈ origin.ports ∨ p.name = "in" ∨
    ∃ parameter : String, p.name = s!"_{parameter}_out"
  channels_new : ∀ c ∈ w.graph.channels, c ∈ origin.channels ∨ c.target.port.name = "in"
  keys_eq : w.protocol.modifiedParameters = done.map (·.parameter)
  fed : w.protocol.Fed w.graph
  unexplored : w.protocol.Unexplored
  rates_agree : w.rates.Agrees w.graph

variable {origin : Graph} {done : List Modifier} {w w' : Workspace}

/-- What a new period actor adds to the graph and to the protocol. -/
structure PeriodActorAdded (w : Workspace) (type : String) (feeder source : Actor)
    (w' : Workspace) : Prop where
  grown : w.graph.Grown w'.graph
  ports_eq : w'.graph.ports = w.graph.ports
  id_eq : source.id = w.graph.nextHandle
  mem : source ∈ w'.graph.actors
  type_eq : source.type = type
  exists_channel : ∃ c, w'.graph.channels = w.graph.channels ++ [c] ∧ c.source.actor = feeder ∧
    c.target.actor = source ∧ c.target.port.name = "in" ∧
    w'.graph.rateText? c.source.port = some "1"
  protocol_eq : w'.protocol =
    { w.protocol with feeders := w.protocol.feeders ++ [(source.id, feeder)] }
  rates_eq : w'.rates = w.rates

private theorem insertPeriodActor_eq_ok {type name : String} {feeder source : Actor} {output : Port}
    (hg : w.graph.WellFormed) (hfeeder : feeder ∈ w.graph.actors) (houtput : output ∈ w.graph.ports)
    (htype : output.type = feeder.type) (hrate : w.graph.rateText? output = some "1")
    (h : insertPeriodActor output.name type name feeder w = .ok source w') :
    PeriodActorAdded w type feeder source w' := by
  obtain ⟨_, _, hstep, h⟩ := bind_eq_ok_iff.mp h
  obtain ⟨g₁, hactor, rfl⟩ := within_eq_ok_iff.mp hstep
  obtain ⟨c, _, hstep, h⟩ := bind_eq_ok_iff.mp h
  obtain ⟨g₂, hchannel, rfl⟩ := within_eq_ok_iff.mp hstep
  obtain ⟨_, _, hupdate, h⟩ := bind_eq_ok_iff.mp h
  cases hupdate
  cases h
  have hgrown₁ := Graph.addActor_grown.of_ok ⟨hg, .refl _⟩ hactor
  have hgrown₂ := Graph.addChannel_grown.of_ok hgrown₁ hchannel
  obtain ⟨hsourceEnd, htargetEnd, -, hg₂⟩ := Graph.addChannel_eq_ok hchannel
  obtain ⟨hnew, hg₁⟩ := Graph.addActor_eq_ok hactor
  have hmem : source ∈ g₁.actors := by
    rw [hg₁]
    exact List.mem_append_right _ (List.mem_singleton_self _)
  obtain ⟨hsourceFits, hsourceName, hsourcePort⟩ := (hgrown₁.1.endpoint_eq_ok_iff).mp hsourceEnd
  obtain ⟨htargetFits, htargetName, htargetPort⟩ := (hgrown₁.1.endpoint_eq_ok_iff).mp htargetEnd
  -- The ends of the channel are told by names, and names tell actors and ports apart.
  have hsource : c.source.actor = feeder :=
    hgrown₁.1.actor_eq_of_name hsourceFits.actor_mem (hgrown₁.2.actors.subset hfeeder) hsourceName
  have htarget : c.target.actor = source :=
    hgrown₁.1.actor_eq_of_name htargetFits.actor_mem hmem htargetName
  have hport : c.source.port = output := by
    refine hgrown₁.1.port_eq_of_name hsourceFits.port_mem (hgrown₁.2.ports.subset houtput) ?_
      hsourcePort
    rw [hsourceFits.type_eq, hsource, htype]
  exact {
    grown := hgrown₂
    ports_eq := by
      show g₂.ports = _
      rw [hg₂, hg₁]
    id_eq := by rw [hnew]
    mem := by
      show source ∈ g₂.actors
      rw [hg₂]
      exact hmem
    type_eq := by rw [hnew]
    exists_channel := by
      refine ⟨c, ?_, hsource, htarget, htargetPort, ?_⟩
      · show g₂.channels = _
        rw [hg₂, hg₁]
      · rw [hport]
        exact hgrown₂.2.rateText? hrate
    protocol_eq := rfl
    rates_eq := rfl }

section Insertion

variable {type : String} {feeder source : Actor}

theorem PeriodActorAdded.lookup_eq (h : PeriodActorAdded w type feeder source w')
    (hg : w.graph.WellFormed) (hfed : w.protocol.Fed w.graph) :
    w'.protocol.feeders.lookup source.id = some feeder := by
  have hnew : w.protocol.feeders.lookup source.id = none := by
    apply Assoc.lookup_eq_none_of_notMem
    intro hmem
    obtain ⟨entry, hentry, heq⟩ := List.mem_map.mp hmem
    have hlt := hg.actor_id_lt (hfed.known entry hentry)
    rw [heq, h.id_eq] at hlt
    exact Nat.lt_irrefl _ hlt
  simp [h.protocol_eq, List.lookup_append, hnew]

private theorem PeriodActorAdded.feeds {parameter : String}
    (h : PeriodActorAdded w (periodType parameter) feeder source w') :
    Feeds w'.graph feeder parameter source := by
  obtain ⟨c, hchannels, hsource, htarget, -, hrate⟩ := h.exists_channel
  have hmem : c ∈ w'.graph.channels := by
    rw [hchannels]
    exact List.mem_append_right _ (List.mem_singleton_self c)
  exact ⟨h.mem, h.type_eq, c, hmem, hsource, htarget, hrate⟩

private theorem PeriodActorAdded.fed (h : PeriodActorAdded w type feeder source w')
    (hfed : w.protocol.Fed w.graph) : w'.protocol.Fed w'.graph := by
  have hfed := hfed.mono h.grown.2
  rw [h.protocol_eq]
  constructor
  · intro entry hentry s hs
    obtain ⟨a, hlookup, hfeeds⟩ := hfed.feeds entry hentry s hs
    refine ⟨a, ?_, hfeeds⟩
    rw [List.lookup_append, hlookup, Option.some_or]
  · intro entry hentry
    obtain hentry | hentry := List.mem_append.mp hentry
    · exact hfed.known entry hentry
    · rw [List.mem_singleton.mp hentry]
      exact List.mem_map_of_mem h.mem

private theorem PeriodActorAdded.sourced (h : PeriodActorAdded w type feeder source w')
    (hw : Sourced origin done w) : Sourced origin done w' where
  grown := ⟨h.grown.1, hw.grown.2.trans h.grown.2⟩
  ports_new := h.ports_eq ▸ hw.ports_new
  channels_new := by
    obtain ⟨added, hchannels, -, -, hname, -⟩ := h.exists_channel
    intro c hc
    rw [hchannels] at hc
    obtain hc | hc := List.mem_append.mp hc
    · exact hw.channels_new c hc
    · rw [List.mem_singleton.mp hc]
      exact .inr hname
  keys_eq := by
    rw [h.protocol_eq]
    exact hw.keys_eq
  fed := h.fed hw.fed
  unexplored := by
    rw [h.protocol_eq]
    exact { hw.unexplored with }
  rates_agree := by
    rw [h.rates_eq]
    exact hw.rates_agree.mono h.grown.2

private theorem addPort_sourced {portType name : String} {direction : Direction}
    {rate : Option String}
    {p : Port} (hname : name = "in" ∨ ∃ parameter : String, name = s!"_{parameter}_out")
    (hw : Sourced origin done w)
    (h : onGraph (Graph.addPort portType name direction rate) w = .ok p w') :
    Sourced origin done w' := by
  obtain ⟨g, hadd, rfl⟩ := within_eq_ok_iff.mp h
  have hgrown := Graph.addPort_grown.of_ok hw.grown hadd
  have hstep := Graph.addPort_grown.of_ok ⟨hw.grown.1, .refl _⟩ hadd
  obtain ⟨-, hp, hg⟩ := Graph.addPort_eq_ok hadd
  have hchannels : g.channels = w.graph.channels := by rw [hg]
  refine ⟨hgrown, fun q hq => ?_, hchannels ▸ hw.channels_new, hw.keys_eq, hw.fed.mono hstep.2,
    hw.unexplored, hw.rates_agree.mono hstep.2⟩
  have hq : q ∈ w.graph.ports ++ [p] := by
    rw [hg] at hq
    exact hq
  obtain hq | hq := List.mem_append.mp hq
  · exact hw.ports_new q hq
  · rw [List.mem_singleton.mp hq, hp]
    exact .inr hname

/-- How a workspace stands when some of the period actors of a modifier were added. -/
structure Inserting (origin : Graph) (done : List Modifier) (m : Modifier) (output : Port)
    (feeders : List Actor) (sources : List Actor) (w : Workspace) : Prop where
  sourced : Sourced origin done w
  output_mem : output ∈ w.graph.ports
  rate_eq : w.graph.rateText? output = some "1"
  feeders_mem : ∀ feeder ∈ feeders, feeder ∈ w.graph.actors
  feeds : ∀ source ∈ sources, ∃ feeder,
    w.protocol.feeders.lookup source.id = some feeder ∧ Feeds w.graph feeder m.parameter source

theorem PeriodActorAdded.inserting {m : Modifier} {output : Port} {feeders sources : List Actor}
    (h : PeriodActorAdded w (periodType m.parameter) feeder source w')
    (hw : Inserting origin done m output feeders sources w) :
    Inserting origin done m output feeders (sources ++ [source]) w' where
  sourced := h.sourced hw.sourced
  output_mem := h.ports_eq ▸ hw.output_mem
  rate_eq := h.grown.2.rateText? hw.rate_eq
  feeders_mem := fun a ha => h.grown.2.actors.subset (hw.feeders_mem a ha)
  feeds := by
    intro s hs
    obtain hs | hs := List.mem_append.mp hs
    · obtain ⟨a, hlookup, hfeeds⟩ := hw.feeds s hs
      refine ⟨a, ?_, hfeeds.mono h.grown.2⟩
      rw [h.protocol_eq, List.lookup_append, hlookup, Option.some_or]
    · rw [List.mem_singleton.mp hs]
      exact ⟨feeder, h.lookup_eq hw.sourced.grown.1 hw.sourced.fed, h.feeds⟩

/-- The period actors of a modifier get a port to be fed from, a port of their own, and are added one
after the other. -/
theorem insertPeriodActorsOf_eq_ok {m : Modifier} (h : insertPeriodActorsOf m w = .ok () w') :
    ∃ output input g₁ g₂ sources w₃,
      Graph.addPort m.type s!"_{m.parameter}_out" .output (some "1") w.graph = .ok output g₁ ∧
      Graph.addPort (periodType m.parameter) "in" .input (some m.period) g₁ = .ok input g₂ ∧
      ((g₂.instances m.type).zipIdx.mapM fun (feeder, index) =>
        insertPeriodActor s!"_{m.parameter}_out" (periodType m.parameter)
          (periodName (periodType m.parameter) (g₂.instances m.type).length index) feeder)
        { w with graph := g₂ } = .ok sources w₃ ∧
      w'.graph = w₃.graph ∧ w'.rates = w₃.rates ∧ w'.protocol =
        { w₃.protocol with sources := Assoc.insert m.parameter sources w₃.protocol.sources } := by
  obtain ⟨output, w₁, houtput, h⟩ := bind_eq_ok_iff.mp h
  obtain ⟨input, w₂, hinput, h⟩ := bind_eq_ok_iff.mp h
  obtain ⟨_, _, hget, h⟩ := bind_eq_ok_iff.mp h
  cases hget
  obtain ⟨sources, w₃, hsources, h⟩ := bind_eq_ok_iff.mp h
  obtain ⟨_, w₄, hupdate, hnote⟩ := bind_eq_ok_iff.mp h
  cases hupdate
  cases hnote
  obtain ⟨g₁, hadd, rfl⟩ := within_eq_ok_iff.mp houtput
  obtain ⟨g₂, hadd', rfl⟩ := within_eq_ok_iff.mp hinput
  exact ⟨output, input, g₁, g₂, sources, w₃, hadd, hadd', hsources, rfl, rfl, rfl⟩

/-- The port that a modifier feeds from is there before its period actors are. -/
theorem Sourced.inserting {m : Modifier} {output input : Port} {g₁ g₂ : Graph}
    (hw : Sourced origin done w)
    (houtput : Graph.addPort m.type s!"_{m.parameter}_out" .output (some "1") w.graph =
      .ok output g₁)
    (hinput : Graph.addPort (periodType m.parameter) "in" .input (some m.period) g₁ =
      .ok input g₂) :
    Inserting origin done m output (g₂.instances m.type) [] { w with graph := g₂ } := by
  have hw₁ := addPort_sourced (.inr ⟨_, rfl⟩) hw (within_eq_ok_iff.mpr ⟨g₁, houtput, rfl⟩)
  have hw₂ := addPort_sourced (.inl rfl) hw₁ (within_eq_ok_iff.mpr ⟨g₂, hinput, rfl⟩)
  have hstep := Graph.addPort_grown.of_ok ⟨hw₁.grown.1, .refl _⟩ hinput
  have hrate := Graph.rateText?_of_addPort hw.grown.1 houtput
  obtain ⟨-, -, hg₁⟩ := Graph.addPort_eq_ok houtput
  have hmem : output ∈ g₁.ports := by
    rw [hg₁]
    exact List.mem_append_right _ (List.mem_singleton_self _)
  exact ⟨hw₂, hstep.2.ports.subset hmem, hstep.2.rateText? hrate,
    fun a ha => List.mem_of_mem_filter ha, by simp⟩

theorem Inserting.added {m : Modifier} {output : Port} {feeders sources : List Actor} {name : String}
    (hw : Inserting origin done m output feeders sources w) (hfeeder : feeder ∈ feeders)
    (htype : output.type = feeder.type) (hname : output.name = s!"_{m.parameter}_out")
    (h : insertPeriodActor s!"_{m.parameter}_out" (periodType m.parameter) name feeder w =
      .ok source w') :
    PeriodActorAdded w (periodType m.parameter) feeder source w' :=
  insertPeriodActor_eq_ok hw.sourced.grown.1 (hw.feeders_mem feeder hfeeder) hw.output_mem htype
    hw.rate_eq (hname ▸ h)

theorem insertPeriodActorsOf_sourced {m : Modifier} (hw : Sourced origin done w)
    (hm : m.parameter ∉ done.map (·.parameter)) (h : insertPeriodActorsOf m w = .ok () w') :
    Sourced origin (done ++ [m]) w' := by
  obtain ⟨output, input, g₁, g₂, sources, w₃, houtput, hinput, hsources, hgraph, hrates,
    hprotocol⟩ := insertPeriodActorsOf_eq_ok h
  obtain ⟨-, hport, -⟩ := Graph.addPort_eq_ok houtput
  have hend := mapM_keeps (I := fun _ sources w =>
    Inserting origin done m output (g₂.instances m.type) sources w)
    (fun before item later sources w source w' hitems hw hstep => ?_) (List.nil_append _)
    (hw.inserting houtput hinput) hsources
  · have hsourced := hend.sourced
    refine ⟨hgraph ▸ hsourced.grown, hgraph ▸ hsourced.ports_new, hgraph ▸ hsourced.channels_new,
      ?_, ⟨?_, ?_⟩, ?_, ?_⟩
    · have hkeys : w₃.protocol.sources.map Prod.fst = done.map (·.parameter) := hsourced.keys_eq
      rw [hprotocol]
      show (Assoc.insert m.parameter sources w₃.protocol.sources).map Prod.fst = _
      rw [Assoc.keys_insert, hkeys, if_neg hm, List.map_append]
      rfl
    · rw [hprotocol, hgraph]
      intro entry hentry
      obtain rfl | hentry := Assoc.mem_insert hentry
      · exact hend.feeds
      · exact hsourced.fed.feeds entry hentry
    · rw [hprotocol, hgraph]
      exact hsourced.fed.known
    · rw [hprotocol]
      exact { hsourced.unexplored with }
    · rw [hgraph, hrates]
      exact hsourced.rates_agree
  · have hitem : item ∈ (g₂.instances m.type).zipIdx := by
      rw [← hitems]
      simp
    have hfeeder : item.1 ∈ g₂.instances m.type := List.fst_mem_of_mem_zipIdx hitem
    have htype : item.1.type = m.type := by
      simpa using (List.mem_filter.mp hfeeder).2
    exact (hw.added hfeeder (by rw [hport, htype]) (by rw [hport]) hstep).inserting hw

/-- The period actors of one modifier are added after those of the other. -/
theorem insertPeriodActors_eq_ok (h : insertPeriodActors w = .ok () w') :
    w.protocol.inserted = false ∧ w.graph.modifiers.forM insertPeriodActorsOf
      { w with protocol := { w.protocol with inserted := true } } = .ok () w' := by
  rw [insertPeriodActors, get_bind_apply] at h
  cases hinserted : w.protocol.inserted with
  | true =>
    rw [hinserted] at h
    cases h
  | false =>
    rw [hinserted] at h
    exact ⟨rfl, h⟩

theorem Sourced.start (hg : origin.WellFormed) {cache : RateCache} (hcache : cache.Agrees origin)
    (journal : Journal) :
    Sourced origin [] ⟨origin, cache, { Protocol.empty with inserted := true }, journal⟩ :=
  ⟨⟨hg, .refl _⟩, fun _ => .inl, fun _ => .inl, rfl,
    ⟨by simp [Protocol.empty], by simp [Protocol.empty]⟩, ⟨rfl, rfl, rfl, rfl⟩, hcache⟩

theorem parameter_notMem (hg : origin.WellFormed) {m : Modifier} {later : List Modifier}
    (h : done ++ m :: later = origin.modifiers) : m.parameter ∉ done.map (·.parameter) := by
  have hnodup := hg.nodup_parameters
  rw [← h, List.map_append, List.nodup_append] at hnodup
  exact fun hmem => hnodup.2.2 _ hmem _ List.mem_cons_self rfl

/-- The period actors of all modifiers are added to a graph about which nothing was known. -/
theorem insertPeriodActors_sourced (hg : origin.WellFormed) {cache : RateCache}
    (hcache : cache.Agrees origin) {journal : Journal}
    (h : insertPeriodActors ⟨origin, cache, .empty, journal⟩ = .ok () w') :
    Sourced origin origin.modifiers w' := by
  obtain ⟨-, h⟩ := insertPeriodActors_eq_ok h
  refine forM_keeps (fun done m later w w' hdone hw hstep => ?_) (List.nil_append _)
    (Sourced.start hg hcache journal) h
  exact insertPeriodActorsOf_sourced hw (parameter_notMem hg hdone) hstep

end Insertion

end Workspace

end Dataflow
