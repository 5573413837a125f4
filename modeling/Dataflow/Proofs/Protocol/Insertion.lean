import Dataflow.Proofs.Graph.Extension
import Dataflow.Proofs.Protocol.Sources

namespace Dataflow

open Dataflow.Action

namespace Workspace

/-- What the insertion of period actors has added so far: the actors are period actors, and each is
at the target of one of the channels, which comes from the actor that is noted to feed it. -/
structure Inserted (origin : Graph) (sources : List Actor) (fed : List Channel) (w : Workspace) :
    Prop where
  grown : origin.Extends w.graph sources fed
  targets_eq : fed.map (·.target.actor) = sources
  sources_new : ∀ a ∈ sources, a.auto = true ∧ ∃ m ∈ origin.modifiers, a.type = periodType m.parameter
  fed_auto : ∀ c ∈ fed, c.auto = true
  feeders_eq : w.protocol.feeders = fed.map fun c => (c.target.actor.id, c.source.actor)

namespace Inserted

variable {origin : Graph} {sources : List Actor} {fed : List Channel} {w w' : Workspace}

private theorem start (hg : origin.WellFormed) {rates : RateCache} {journal : Journal} :
    Inserted origin [] [] ⟨origin, rates, { Protocol.empty with inserted := true }, journal⟩ :=
  ⟨.refl hg, rfl, by simp, by simp, rfl⟩

/-- Each period actor is fed over a single channel. -/
theorem existsUnique_channel (h : Inserted origin sources fed w) {a : Actor} (ha : a ∈ sources) :
    ∃! c, c ∈ fed ∧ c.target.actor = a := by
  have hnodup : (fed.map (·.target.actor)).Nodup := by
    rw [h.targets_eq]
    exact h.grown.nodup_new.of_map
  rw [← h.targets_eq] at ha
  obtain ⟨c, hc, rfl⟩ := List.mem_map.mp ha
  exact ⟨c, ⟨hc, rfl⟩, fun d ⟨hd, heq⟩ => List.inj_on_of_nodup_map hnodup hd hc heq⟩

theorem feederOf_eq (h : Inserted origin sources fed w) {c : Channel} (hc : c ∈ fed) :
    w.protocol.feederOf c.target.actor = .ok c.source.actor := by
  have hnodup : (w.protocol.feeders.map Prod.fst).Nodup := by
    have hids := h.grown.nodup_new
    rw [← h.targets_eq, List.map_map] at hids
    rw [h.feeders_eq, List.map_map]
    exact hids
  have hmem : (c.target.actor.id, c.source.actor) ∈ w.protocol.feeders := by
    rw [h.feeders_eq]
    exact List.mem_map_of_mem hc
  rw [Protocol.feederOf, Assoc.lookup_eq_some_of_mem hnodup hmem]

end Inserted

/-- The ports for the period actors of a modifier are there, and so are the actors that are to feed
them. -/
structure Furnishes (m : Modifier) (output input : Port) (feeders : List Actor) (g : Graph) :
    Prop where
  output_mem : output ∈ g.ports
  output_eq : output.type = m.type ∧ output.direction = .output
  input_mem : input ∈ g.ports
  input_eq : input.type = periodType m.parameter ∧ input.name = "in" ∧ input.direction = .input
  feeders_mem : ∀ a ∈ feeders, a ∈ g.actors ∧ a.type = m.type

theorem Furnishes.mono {m : Modifier} {output input : Port} {feeders : List Actor} {g g' : Graph}
    (h : Furnishes m output input feeders g) (hgrows : g.Grows g') :
    Furnishes m output input feeders g' :=
  { h with
    output_mem := hgrows.ports.subset h.output_mem
    input_mem := hgrows.ports.subset h.input_mem
    feeders_mem := fun a ha => (h.feeders_mem a ha).imp_left (hgrows.actors.subset ·) }

section Insertion

variable {origin : Graph} {sources : List Actor} {fed : List Channel} {w : Workspace} {m : Modifier}
  {output input : Port} {feeders : List Actor}

/-- A period actor is refused before anything has changed, or it is added with its channel. -/
theorem insertPeriodActor_cases (hg : w.graph.WellFormed)
    (hports : Furnishes m output input feeders w.graph) {feeder : Actor} (hfeeder : feeder ∈ feeders)
    (name : String) :
    (∃ e, insertPeriodActor output.name (periodType m.parameter) name feeder w = .error e w) ∨
      ∃ source c g₁ g₂,
        Graph.addActor name (periodType m.parameter) 0 true w.graph = .ok source g₁ ∧
        Graph.addChannel (feeder.name, output.name) (source.name, "in")
          { name := some s!"{feeder.name}to{source.name}", auto := true } g₁ = .ok c g₂ ∧
        c.source = ⟨feeder, output⟩ ∧ c.target = ⟨source, input⟩ ∧
        insertPeriodActor output.name (periodType m.parameter) name feeder w =
          .ok source { w with
            graph := g₂
            protocol :=
              { w.protocol with feeders := w.protocol.feeders ++ [(source.id, feeder)] } } := by
  cases hadd : Graph.addActor name (periodType m.parameter) 0 true w.graph with
  | error e g =>
    obtain rfl := Graph.addActor_eq_error hadd
    exact .inl ⟨e, bind_eq_error_iff.mpr (.inl (within_eq_error_iff.mpr ⟨_, hadd, rfl⟩))⟩
  | ok source g₁ =>
    have hgrown := Graph.addActor_grown.of_ok ⟨hg, .refl _⟩ hadd
    have hports' := hports.mono hgrown.2
    obtain ⟨hfeederMem, hfeederType⟩ := hports'.feeders_mem feeder hfeeder
    obtain ⟨hsource, hg₁⟩ := Graph.addActor_eq_ok hadd
    have hmem : source ∈ g₁.actors := by
      rw [hg₁]
      exact List.mem_append_right _ List.mem_cons_self
    have houtputFits : (⟨feeder, output⟩ : Endpoint).FitsIn g₁ .output :=
      ⟨hfeederMem, hports'.output_mem, hports.output_eq.1.trans hfeederType.symm,
        hports.output_eq.2⟩
    have hinputFits : (⟨source, input⟩ : Endpoint).FitsIn g₁ .input :=
      ⟨hmem, hports'.input_mem, by rw [hports.input_eq.1, hsource], hports.input_eq.2.2⟩
    obtain ⟨c, g₂, hchannel, hc, hc'⟩ := Graph.exists_addChannel hgrown.1 houtputFits hinputFits
      { name := some s!"{feeder.name}to{source.name}", auto := true } (Int.le_refl 0)
    rw [hports.input_eq.2.1] at hchannel
    refine .inr ⟨source, c, g₁, g₂, rfl, hchannel, hc, hc', ?_⟩
    exact bind_eq_ok_iff.mpr ⟨_, _, within_eq_ok_iff.mpr ⟨_, hadd, rfl⟩,
      bind_eq_ok_iff.mpr ⟨_, _, within_eq_ok_iff.mpr ⟨_, hchannel, rfl⟩,
        bind_eq_ok_iff.mpr ⟨_, _, rfl, rfl⟩⟩⟩

/-- One more period actor, with its channel. -/
theorem Inserted.insert (hw : Inserted origin sources fed w) (hm : m ∈ origin.modifiers)
    {name : String} {feeder source : Actor} {place place' : String × String} {c : Channel}
    {channelName : Option String} {g₁ g₂ : Graph}
    (hactor : Graph.addActor name (periodType m.parameter) 0 true w.graph = .ok source g₁)
    (hchannel : Graph.addChannel place place' { name := channelName, auto := true } g₁ = .ok c g₂)
    (hfeeder : c.source.actor = feeder) (hsource : c.target.actor = source) :
    Inserted origin (sources ++ [source]) (fed ++ [c])
      { w with
        graph := g₂
        protocol := { w.protocol with feeders := w.protocol.feeders ++ [(source.id, feeder)] } } := by
  obtain ⟨hnew, -⟩ := Graph.addActor_eq_ok hactor
  obtain ⟨-, -, hauto, -⟩ := Graph.addChannel_eq_ok hchannel
  refine ⟨(hw.grown.addActor hactor).addChannel hchannel, ?_, ?_, ?_, ?_⟩
  · rw [List.map_append, hw.targets_eq, List.map_singleton, hsource]
  · refine List.forall_mem_append.mpr ⟨hw.sources_new, List.forall_mem_singleton.mpr ?_⟩
    rw [hnew]
    exact ⟨rfl, m, hm, rfl⟩
  · exact List.forall_mem_append.mpr ⟨hw.fed_auto, List.forall_mem_singleton.mpr hauto⟩
  · show w.protocol.feeders ++ _ = _
    rw [hw.feeders_eq, List.map_append, List.map_singleton, hfeeder, hsource]

/-- However the addition of a period actor ends, those that are there have their channels. -/
theorem insertPeriodActor_inserted (hm : m ∈ origin.modifiers) {feeder : Actor}
    (hfeeder : feeder ∈ feeders) (name : String) :
    (insertPeriodActor output.name (periodType m.parameter) name feeder).Keeps fun w =>
      (∃ sources fed, Inserted origin sources fed w) ∧
        Furnishes m output input feeders w.graph := by
  rintro w ⟨⟨sources, fed, hw⟩, hports⟩
  obtain ⟨e, hrefused⟩ | ⟨source, c, g₁, g₂, hactor, hchannel, hc, hc', hadded⟩ :=
    insertPeriodActor_cases hw.grown.wellFormed hports hfeeder name
  · rw [after_of_error hrefused]
    exact ⟨⟨sources, fed, hw⟩, hports⟩
  · rw [after_of_ok hadded]
    have hgrown₁ := Graph.addActor_grown.of_ok ⟨hw.grown.wellFormed, .refl _⟩ hactor
    have hgrown₂ := Graph.addChannel_grown.of_ok hgrown₁ hchannel
    exact ⟨⟨_, _, hw.insert hm hactor hchannel (by rw [hc]) (by rw [hc'])⟩,
      hports.mono hgrown₂.2⟩

/-- Once both ports for a modifier were added, its period actors find them. -/
theorem furnishes_of_addPort {g g₁ g₂ : Graph} {output input : Port} {rate rate' : Option String}
    (houtput : Graph.addPort m.type s!"_{m.parameter}_out" .output rate g = .ok output g₁)
    (hinput : Graph.addPort (periodType m.parameter) "in" .input rate' g₁ = .ok input g₂) :
    Furnishes m output input (g₂.instances m.type) g₂ := by
  obtain ⟨-, rfl, rfl⟩ := Graph.addPort_eq_ok houtput
  obtain ⟨-, rfl, rfl⟩ := Graph.addPort_eq_ok hinput
  refine ⟨?_, ⟨rfl, rfl⟩, List.mem_append_right _ List.mem_cons_self, ⟨rfl, rfl, rfl⟩,
    fun a ha => ?_⟩
  · exact List.mem_append_left _ (List.mem_append_right _ List.mem_cons_self)
  · obtain ⟨hmem, htype⟩ := List.mem_filter.mp ha
    exact ⟨hmem, eq_of_beq htype⟩

private theorem addPort_inserted {type name : String} {direction : Direction}
    {rate : Option String} : (onGraph (Graph.addPort type name direction rate)).Keeps fun w =>
      ∃ sources fed, Inserted origin sources fed w := by
  rintro w ⟨sources, fed, hw⟩
  unfold onGraph
  rw [after_within]
  exact ⟨sources, fed, { hw with grown := Graph.keeps_addPort_extends _ hw.grown }⟩

private theorem insertPeriodActorsOf_inserted (hm : m ∈ origin.modifiers) :
    (insertPeriodActorsOf m).Keeps fun w => ∃ sources fed, Inserted origin sources fed w := by
  intro w hw
  let P (w : Workspace) : Prop := ∃ sources fed, Inserted origin sources fed w
  refine after_bind_of (P := P) (fun _ _ => addPort_inserted.of_error hw)
    fun output w₁ houtput => ?_
  have hw₁ : P w₁ := addPort_inserted.of_ok hw houtput
  refine after_bind_of (P := P) (fun _ _ => addPort_inserted.of_error hw₁)
    fun input w₂ hinput => ?_
  have hw₂ : P w₂ := addPort_inserted.of_ok hw₁ hinput
  refine after_bind_of (P := P) (fun _ _ hget => by cases hget) fun _ _ hget => ?_
  cases hget
  obtain ⟨g₁, hadd, rfl⟩ := within_eq_ok_iff.mp houtput
  obtain ⟨g₂, hadd', rfl⟩ := within_eq_ok_iff.mp hinput
  have hports := furnishes_of_addPort hadd hadd'
  have hname : output.name = s!"_{m.parameter}_out" := by rw [(Graph.addPort_eq_ok hadd).2.1]
  have hloop : ((g₂.instances m.type).zipIdx.mapM fun item =>
      insertPeriodActor s!"_{m.parameter}_out" (periodType m.parameter)
        (periodName (periodType m.parameter) (g₂.instances m.type).length item.2) item.1).Keeps
      fun w => P w ∧ Furnishes m output input (g₂.instances m.type) w.graph :=
    keeps_mapM fun item hitem =>
      hname ▸ insertPeriodActor_inserted hm (List.fst_mem_of_mem_zipIdx hitem) _
  refine after_bind (P := P) (hloop _ ⟨hw₂, hports⟩).1 fun sources => ?_
  refine Keeps.bind (keeps_modify ?_) fun _ => keeps_modify ?_ <;>
  · rintro w ⟨sources, fed, hw⟩
    exact ⟨sources, fed, { hw with }⟩

/-- However far the insertion gets, every period actor that was added has its channel, and is noted
with the actor that feeds it. -/
theorem inserted_after (hg : origin.WellFormed) (rates : RateCache) (journal : Journal) :
    ∃ sources fed, Inserted origin sources fed
      (insertPeriodActors.after ⟨origin, rates, .empty, journal⟩) := by
  exact keeps_forM (fun m hm => insertPeriodActorsOf_inserted hm) _ ⟨[], [], .start hg⟩

end Insertion

end Workspace

end Dataflow
