import Dataflow.Proofs.Protocol.Settlement

namespace Dataflow

open Dataflow.Action

namespace Protocol

/-- A parameter has one period actor, and whoever feeds that is noted to set the parameter. -/
def Settles (p : Protocol) (entry : String × List Actor) : Prop :=
  ∃ source feeder, entry.2 = [source] ∧ p.feeders.lookup source.id = some feeder ∧
    (feeder.id, entry.1) ∈ p.modified

/-- The parameters that have a modifier are settled, and the environment has those of the rates at
some ports that have none. -/
structure Classifies (p : Protocol) (g : Graph) (ports : List Port) : Prop where
  settles : ∀ entry ∈ p.sources, p.Settles entry
  mem_environment_iff : ∀ parameter, parameter ∈ p.environment ↔
    parameter ∉ p.modifiedParameters ∧ ∃ port ∈ ports, parameter ∈ g.rateParameters port

variable {p : Protocol} {g : Graph} {ports : List Port}

private theorem Settles.addModified {entry : String × List Actor} (h : p.Settles entry) (a : Actor)
    (parameter : String) : (p.addModified a parameter).Settles entry := by
  obtain ⟨source, feeder, hsources, hlookup, hmem⟩ := h
  have hagrees : p.Agrees p := ⟨rfl, rfl, rfl, rfl⟩
  refine ⟨source, feeder, hsources, ?_, modified_subset_addModified a parameter hmem⟩
  rw [(hagrees.addModified a parameter).feeders_eq]
  exact hlookup

private theorem Classifies.congr {p' : Protocol} (h : p.Classifies g ports)
    (hsources : p'.sources = p.sources) (hfeeders : p'.feeders = p.feeders)
    (hmodified : p'.modified = p.modified) (henvironment : p'.environment = p.environment) :
    p'.Classifies g ports where
  settles := by
    unfold Settles
    rw [hsources, hfeeders, hmodified]
    exact h.settles
  mem_environment_iff := by
    unfold modifiedParameters
    rw [henvironment, hsources]
    exact h.mem_environment_iff

theorem Classifies.withUses (h : p.Classifies g ports) (uses : Uses) :
    { p with uses }.Classifies g ports :=
  h.congr rfl rfl rfl rfl

/-- The parameters with a modifier and those of the environment are different ones. -/
theorem Classifies.disjoint (h : p.Classifies g ports) :
    p.modifiedParameters.Disjoint p.environment :=
  fun parameter hmodified henvironment =>
    ((h.mem_environment_iff parameter).mp henvironment).1 hmodified

/-- A parameter in the rate of a port has a modifier or belongs to the environment. -/
theorem Classifies.covers (h : p.Classifies g ports) {port : Port} (hport : port ∈ ports)
    {parameter : String} (hparameter : parameter ∈ g.rateParameters port) :
    parameter ∈ p.modifiedParameters ∨ parameter ∈ p.environment := by
  by_cases hmodified : parameter ∈ p.modifiedParameters
  · exact .inl hmodified
  · exact .inr ((h.mem_environment_iff parameter).mpr ⟨hmodified, port, hport, hparameter⟩)

end Protocol

namespace Workspace

variable {w w' start : Workspace}

/-- How a workspace stands when the period actors `done` were settled, and nothing else was done. -/
structure Attributed (start : Workspace) (done : List (String × List Actor)) (w : Workspace) :
    Prop where
  graph_eq : w.graph = start.graph
  rates_eq : w.rates = start.rates
  sources_eq : w.protocol.sources = start.protocol.sources
  environment_eq : w.protocol.environment = start.protocol.environment
  settles : ∀ entry ∈ done, w.protocol.Settles entry

private theorem settleModifier_attributed {done : List (String × List Actor)}
    {entry : String × List Actor} (hw : Attributed start done w)
    (h : settleModifier entry.1 entry.2 w = .ok () w') : Attributed start (done ++ [entry]) w' := by
  obtain ⟨source, feeder, hentry, hlookup, rfl⟩ := settleModifier_eq_ok h
  have hsame : (w.protocol.addModified feeder entry.1).sources = w.protocol.sources ∧
      (w.protocol.addModified feeder entry.1).feeders = w.protocol.feeders ∧
      (w.protocol.addModified feeder entry.1).environment = w.protocol.environment := by
    unfold Protocol.addModified
    split <;> exact ⟨rfl, rfl, rfl⟩
  refine ⟨hw.graph_eq, hw.rates_eq, hsame.1.trans hw.sources_eq,
    hsame.2.2.trans hw.environment_eq, fun other hother => ?_⟩
  obtain hother | hother := List.mem_append.mp hother
  · exact (hw.settles other hother).addModified feeder entry.1
  · rw [List.mem_singleton.mp hother]
    -- The feeder was looked up before it was noted, and noting it leaves the feeders alone.
    exact ⟨source, feeder, hentry, hsame.2.1 ▸ hlookup, Protocol.mem_modified_addModified⟩

/-- How a workspace stands when the rates of some ports were searched for parameters. -/
structure Searched (g : Graph) (ports : List Port) (w : Workspace) : Prop where
  graph_eq : w.graph = g
  rates_agree : w.rates.Agrees g
  classifies : w.protocol.Classifies g ports

private theorem collectOccurrences_searched {g : Graph} {ports : List Port} {port : Port}
    (hw : Searched g ports w) (h : collectOccurrences port w = .ok () w') :
    Searched g (ports ++ [port]) w' := by
  obtain ⟨rfl, hrates, hclassifies⟩ := hw
  obtain ⟨rates, environment, hrates', rfl, hmem⟩ := collectOccurrences_eq_ok hrates h
  refine ⟨rfl, hrates', hclassifies.settles, fun parameter => ?_⟩
  show parameter ∈ environment ↔ parameter ∉ w.protocol.modifiedParameters ∧ _
  rw [hmem, hclassifies.mem_environment_iff]
  simp only [List.mem_append, List.mem_singleton, or_and_right, exists_or, exists_eq_left,
    and_or_left]
  exact or_congr_right and_comm

/-- Once the sources are identified, every parameter in the rate of a port is accounted for. -/
theorem identifySources_classifies (hw : w.rates.Agrees w.graph)
    (henvironment : w.protocol.environment = []) (h : identifySources w = .ok () w') :
    w'.protocol.Classifies w'.graph w'.graph.ports := by
  obtain ⟨w₁, w₂, journal, hsettle, hcollect, rfl⟩ := identifySources_eq_ok h
  -- The first loop reads no rate, so the cache agrees with the graph when the second one starts.
  have hstart : Attributed w [] w := ⟨rfl, rfl, rfl, rfl, by simp⟩
  have hattributed := forM_keeps (fun _ _ _ _ _ _ => settleModifier_attributed)
    (List.nil_append _) hstart hsettle
  have hsearching : Searched w₁.graph [] w₁ := by
    refine ⟨rfl, ?_, ?_, fun parameter => ?_⟩
    · rw [hattributed.graph_eq, hattributed.rates_eq]
      exact hw
    · rw [hattributed.sources_eq]
      exact hattributed.settles
    · simp [hattributed.environment_eq, henvironment]
  have hsearched := forM_keeps (fun _ _ _ _ _ _ => collectOccurrences_searched)
    (List.nil_append _) hsearching hcollect
  show w₂.protocol.Classifies w₂.graph w₂.graph.ports
  rw [hsearched.graph_eq]
  exact hsearched.classifies

end Workspace

end Dataflow
