import Dataflow.Proofs.Protocol.Sources

namespace Dataflow

open Dataflow.Action

namespace Protocol

/-- Each parameter that is set in the graph has one period actor, and whoever sets the parameter
feeds that actor. -/
structure Settled (p : Protocol) : Prop where
  single : ∀ entry ∈ p.sources, ∃ source, entry.2 = [source]
  setter : ∀ entry ∈ p.modified, ∃ source feeder, (entry.2, [source]) ∈ p.sources ∧
    p.feeders.lookup source.id = some feeder ∧ feeder.id = entry.1

theorem Settled.congr {p p' : Protocol} (h : p.Settled) (hsources : p'.sources = p.sources)
    (hfeeders : p'.feeders = p.feeders) (hmodified : p'.modified = p.modified) : p'.Settled where
  single := by
    rw [hsources]
    exact h.single
  setter := by
    rw [hmodified, hsources, hfeeders]
    exact h.setter

theorem Settled.source?_eq_some_iff {p : Protocol} (h : p.Settled)
    (hnodup : p.modifiedParameters.Nodup) {parameter : String} {source : Actor} :
    p.source? parameter = some source ↔ (parameter, [source]) ∈ p.sources := by
  unfold source?
  constructor
  · intro hsource
    obtain ⟨sources, hlookup, hhead⟩ := Option.bind_eq_some_iff.mp hsource
    have hmem := Assoc.mem_of_lookup_eq_some hlookup
    obtain ⟨only, rfl⟩ : ∃ only, sources = [only] := h.single _ hmem
    rw [List.head?_cons, Option.some.injEq] at hhead
    exact hhead ▸ hmem
  · intro hmem
    rw [Assoc.lookup_eq_some_of_mem hnodup hmem]
    rfl

/-- What was noted about period actors and uses is the same. -/
structure Agrees (p p' : Protocol) : Prop where
  sources_eq : p'.sources = p.sources
  feeders_eq : p'.feeders = p.feeders
  uses_eq : p'.uses = p.uses
  connected_eq : p'.connected = p.connected

variable {p p' : Protocol}

theorem Agrees.addModified (h : p.Agrees p') (a : Actor) (parameter : String) :
    p.Agrees (p'.addModified a parameter) := by
  unfold Protocol.addModified
  split
  · exact h
  · exact { h with }

private theorem mem_modified_of_addModified {a : Actor} {parameter : String}
    {entry : Handle × String} (h : entry ∈ (p.addModified a parameter).modified) :
    entry ∈ p.modified ∨ entry = (a.id, parameter) := by
  unfold Protocol.addModified at h
  split at h
  · exact .inl h
  · exact (List.mem_append.mp h).imp_right List.mem_singleton.mp

theorem mem_modified_addModified {a : Actor} {parameter : String} :
    (a.id, parameter) ∈ (p.addModified a parameter).modified := by
  unfold Protocol.addModified
  split
  · rename_i hset
    obtain ⟨entry, hentry, rfl⟩ := List.mem_map.mp (List.contains_iff_mem.mp hset)
    obtain ⟨hmem, hid⟩ := List.mem_filter.mp hentry
    rwa [← eq_of_beq hid]
  · exact List.mem_append_right _ (List.mem_singleton_self _)

theorem modified_subset_addModified (a : Actor) (parameter : String) :
    p.modified ⊆ (p.addModified a parameter).modified := by
  unfold Protocol.addModified
  split
  · exact List.Subset.refl _
  · exact List.subset_append_left _ _

/-- A parameter that occurs is added to the environment unless it has a modifier. -/
theorem addOccurrence_eq (p : Protocol) (parameter : String) :
    ∃ environment, p.addOccurrence parameter = { p with environment } ∧
      ∀ q, q ∈ environment ↔ q ∈ p.environment ∨ q = parameter ∧ q ∉ p.modifiedParameters := by
  unfold Protocol.addOccurrence
  split
  · rename_i hknown
    rw [Bool.or_eq_true, List.contains_iff_mem, List.contains_iff_mem] at hknown
    exact ⟨p.environment, rfl, fun q => by grind⟩
  · rename_i hnew
    rw [Bool.or_eq_true, List.contains_iff_mem, List.contains_iff_mem] at hnew
    refine ⟨_, rfl, fun q => ?_⟩
    rw [List.mem_append, List.mem_singleton]
    grind

theorem addOccurrences_eq (p : Protocol) (parameters : List String) :
    ∃ environment, parameters.foldl Protocol.addOccurrence p = { p with environment } ∧
      ∀ q, q ∈ environment ↔ q ∈ p.environment ∨ q ∈ parameters ∧ q ∉ p.modifiedParameters := by
  induction parameters generalizing p with
  | nil => exact ⟨p.environment, rfl, fun q => by simp⟩
  | cons parameter parameters ih =>
    obtain ⟨first, hfirst, hmem⟩ := p.addOccurrence_eq parameter
    obtain ⟨environment, hrest, hmem'⟩ := ih { p with environment := first }
    refine ⟨environment, by rw [List.foldl_cons, hfirst, hrest], fun q => ?_⟩
    rw [hmem' q, hmem q, or_assoc, List.mem_cons, or_and_right]
    rfl

end Protocol

namespace Workspace

/-- How a workspace stands when it was settled for the period actors `done` who feeds them. -/
structure Settling (g : Graph) (p : Protocol) (done : List (String × List Actor)) (w : Workspace) :
    Prop where
  graph_eq : w.graph = g
  rates_agree : w.rates.Agrees g
  agrees : p.Agrees w.protocol
  single : ∀ entry ∈ done, ∃ source, entry.2 = [source]
  setter : ∀ entry ∈ w.protocol.modified, ∃ source feeder, (entry.2, [source]) ∈ p.sources ∧
    p.feeders.lookup source.id = some feeder ∧ feeder.id = entry.1

section Settlement

variable {g : Graph} {p : Protocol} {done : List (String × List Actor)} {w w' : Workspace}

theorem feederOf_eq_ok_iff {source feeder : Actor} :
    p.feederOf source = .ok feeder ↔ p.feeders.lookup source.id = some feeder := by
  unfold Protocol.feederOf
  cases p.feeders.lookup source.id <;> simp

/-- Looking the feeders up changes nothing, and there is one for each period actor. -/
theorem feeders_of_mapM {sources feeders : List Actor}
    (h : sources.mapM (fun source => (liftM (p.feederOf source) : Action Workspace Actor)) w =
      .ok feeders w') :
    w' = w ∧ sources.map (fun source => p.feeders.lookup source.id) = feeders.map some := by
  have hstart : w = w ∧ ([] : List Actor).map (fun source => p.feeders.lookup source.id) =
    ([] : List Actor).map some := ⟨rfl, rfl⟩
  refine mapM_keeps (I := fun done feeders w' => w' = w ∧
    done.map (fun source => p.feeders.lookup source.id) = feeders.map some)
    (fun done source later feeders w₁ feeder w₂ _ hw₁ hstep => ?_) (List.nil_append _) hstart h
  obtain ⟨hfeeder, rfl⟩ := lift_eq_ok_iff.mp hstep
  rw [List.map_append, List.map_append, hw₁.2, List.map_singleton, List.map_singleton,
    feederOf_eq_ok_iff.mp hfeeder]
  exact ⟨hw₁.1, rfl⟩

/-- To settle a parameter is to note the actor that feeds its one period actor. -/
theorem settleModifier_eq_ok {parameter : String} {sources : List Actor}
    (h : settleModifier parameter sources w = .ok () w') :
    ∃ source feeder, sources = [source] ∧ w.protocol.feeders.lookup source.id = some feeder ∧
      w' = { w with protocol := w.protocol.addModified feeder parameter } := by
  obtain ⟨_, _, hget, h⟩ := bind_eq_ok_iff.mp h
  cases hget
  obtain ⟨m, _, hm, h⟩ := bind_eq_ok_iff.mp h
  obtain ⟨-, rfl⟩ := lift_eq_ok_iff.mp hm
  obtain ⟨feeders, w₁, hfeeders, h⟩ := bind_eq_ok_iff.mp h
  obtain ⟨hw₁, hlookups⟩ := feeders_of_mapM hfeeders
  rw [hw₁] at h
  split at h
  · rename_i feeder
    cases h
    -- Every period actor has a feeder, so a single feeder means a single period actor.
    obtain ⟨source, rfl⟩ : ∃ source, sources = [source] := by
      have hlength := congrArg List.length hlookups
      simp only [List.length_map, List.length_cons, List.length_nil] at hlength
      exact List.length_eq_one_iff.mp hlength
    exact ⟨source, feeder, rfl, by simpa using hlookups, rfl⟩
  · cases h

/-- The parameters in the rate of a port, if it has one, are added to the environment unless they
have a modifier. -/
theorem collectOccurrences_eq_ok {port : Port} (hw : w.rates.Agrees w.graph)
    (h : collectOccurrences port w = .ok () w') :
    ∃ rates environment, rates.Agrees w.graph ∧
      w' = { w with rates, protocol := { w.protocol with environment } } ∧
      ∀ q, q ∈ environment ↔ q ∈ w.protocol.environment ∨
        q ∈ w.graph.rateParameters port ∧ q ∉ w.protocol.modifiedParameters := by
  obtain ⟨_, _, hget, h⟩ := bind_eq_ok_iff.mp h
  cases hget
  obtain ⟨found, _, hfound, h⟩ := bind_eq_ok_iff.mp h
  obtain ⟨rates, hrate, rfl⟩ := within_eq_ok_iff.mp hfound
  obtain ⟨hread, hnone⟩ := RateCache.rate?_eq_ok hw hrate
  have hagrees := RateCache.rate?_keeps.of_ok hw hrate
  cases found with
  | none =>
    cases h
    have hempty : w.graph.rateParameters port = [] := by
      rw [Graph.rateParameters, Graph.readRate, hnone rfl]
    exact ⟨rates, w.protocol.environment, hagrees, rfl, fun q => by simp [hempty]⟩
  | some rate =>
    have hparameters : w.graph.rateParameters port = rate.parameters := by
      rw [Graph.rateParameters, hread rate rfl]
    obtain ⟨environment, hadd, hmem⟩ := w.protocol.addOccurrences_eq rate.parameters
    cases h
    exact ⟨rates, environment, hagrees, by rw [← hadd], fun q => hparameters ▸ hmem q⟩

/-- First it is settled who sets the parameters, then the rates of all ports are searched for
others. -/
theorem identifySources_eq_ok (h : identifySources w = .ok () w') :
    ∃ w₁ w₂ journal,
      (w.protocol.sources.forM fun entry => settleModifier entry.1 entry.2) w = .ok () w₁ ∧
      w₁.graph.ports.forM collectOccurrences w₁ = .ok () w₂ ∧ w' = { w₂ with journal } := by
  obtain ⟨_, _, hget, h⟩ := bind_eq_ok_iff.mp h
  cases hget
  obtain ⟨_, w₁, hsettle, h⟩ := bind_eq_ok_iff.mp h
  obtain ⟨_, _, hget, h⟩ := bind_eq_ok_iff.mp h
  cases hget
  obtain ⟨_, w₂, hcollect, h⟩ := bind_eq_ok_iff.mp h
  obtain ⟨_, _, hget, h⟩ := bind_eq_ok_iff.mp h
  cases hget
  refine ⟨w₁, w₂, w'.journal, hsettle, hcollect, ?_⟩
  split at h
  · cases h
    rfl
  · cases h
    rfl

private theorem settleModifier_settling {parameter : String} {sources : List Actor}
    (hmem : (parameter, sources) ∈ p.sources) (hw : Settling g p done w)
    (h : settleModifier parameter sources w = .ok () w') :
    Settling g p (done ++ [(parameter, sources)]) w' := by
  obtain ⟨source, feeder, rfl, hlookup, rfl⟩ := settleModifier_eq_ok h
  refine ⟨hw.graph_eq, hw.rates_agree, hw.agrees.addModified feeder parameter, ?_, ?_⟩
  · intro entry hentry
    obtain hentry | hentry := List.mem_append.mp hentry
    · exact hw.single entry hentry
    · exact ⟨source, by rw [List.mem_singleton.mp hentry]⟩
  · intro entry hentry
    obtain hentry | rfl := Protocol.mem_modified_of_addModified hentry
    · exact hw.setter entry hentry
    · exact ⟨source, feeder, hmem, hw.agrees.feeders_eq ▸ hlookup, rfl⟩

private theorem collectOccurrences_settling {port : Port} (hw : Settling g p done w)
    (h : collectOccurrences port w = .ok () w') : Settling g p done w' := by
  obtain ⟨rates, environment, hrates, rfl, -⟩ :=
    collectOccurrences_eq_ok (hw.graph_eq ▸ hw.rates_agree) h
  exact ⟨hw.graph_eq, hw.graph_eq ▸ hrates, { hw.agrees with }, hw.single, hw.setter⟩

theorem identifySources_settling (hw : w.rates.Agrees w.graph)
    (hmodified : w.protocol.modified = []) (h : identifySources w = .ok () w') :
    Settling w.graph w.protocol w.protocol.sources w' := by
  obtain ⟨w₁, w₂, journal, hsettle, hcollect, rfl⟩ := identifySources_eq_ok h
  have hstart : Settling w.graph w.protocol [] w :=
    ⟨rfl, hw, ⟨rfl, rfl, rfl, rfl⟩, by simp, by simp [hmodified]⟩
  have hsettled := forM_keeps (fun done entry later w' w'' hdone hw' hstep =>
    settleModifier_settling (hdone ▸ List.mem_append_right _ List.mem_cons_self) hw' hstep)
    (List.nil_append _) hstart hsettle
  have hcollected := forM_keeps (I := fun _ => Settling w.graph w.protocol w.protocol.sources)
    (fun _ _ _ _ _ _ => collectOccurrences_settling) (List.nil_append _) hsettled hcollect
  exact { hcollected with }

theorem Settling.settled (hw : Settling g p p.sources w) : w.protocol.Settled where
  single := hw.agrees.sources_eq ▸ hw.single
  setter := by
    rw [hw.agrees.sources_eq, hw.agrees.feeders_eq]
    exact hw.setter

end Settlement

end Workspace

end Dataflow
