import Dataflow.Proofs.Analysis.Graphs
import Dataflow.Proofs.Analysis.Preparation
import Dataflow.Proofs.Protocol.Environment

namespace Dataflow

open Dataflow.Action

private theorem Protocol.mem_modifiedBy_iff {p : Protocol} {a : Actor} {parameter : String} :
    parameter ∈ p.modifiedBy a ↔ (a.id, parameter) ∈ p.modified := by
  simp [modifiedBy]

namespace Balance

/-- A parameter that a firing count depends on is in the rate of some port. -/
theorem Found.exists_rateParameters {g : Graph} {table : Repetitions} (hg : g.WellFormed)
    (h : Found g table) {a : Actor} (ha : a ∈ g.actors) {parameter : String}
    (hparameter : parameter ∈ (table.count a).parameters) :
    ∃ port ∈ g.ports, parameter ∈ g.rateParameters port := by
  obtain ⟨hpower, hsymbol⟩ := Monomial.mem_parameters_iff.mp hparameter
  obtain ⟨port, hport, rate, hrate, hdivides⟩ := h.exists_port hg ha hpower
  refine ⟨port, hport, Graph.mem_rateParameters_iff.mpr ⟨rate, hrate, ?_⟩⟩
  exact Monomial.mem_parameters_iff.mpr ⟨hdivides, hsymbol⟩

end Balance

namespace Run

/-- A parameter has one period actor, and the actor that feeds that is the only one that sets the
parameter. -/
structure IsSetBy (run : Run) (parameter : String) (source feeder : Actor) : Prop where
  lookup_eq : run.protocol.sources.lookup parameter = some [source]
  source?_eq : run.protocol.source? parameter = some source
  source_mem : source ∈ run.graph.actors
  feederOf_eq : run.protocol.feederOf source = .ok feeder
  feeder_mem : feeder ∈ run.graph.actors
  mem_modifiedBy_iff : ∀ a ∈ run.graph.actors, parameter ∈ run.protocol.modifiedBy a ↔ a = feeder

/-- Who uses a parameter, and where each parameter that is used comes from. -/
structure Classified (run : Run) (table : Repetitions) : Prop where
  mem_usersOf_iff : ∀ a ∈ run.graph.actors, ∀ parameter,
    a ∈ run.protocol.usersOf parameter ↔ parameter ∈ run.protocol.usedBy a
  mem_usedBy_iff : ∀ a ∈ run.graph.actors, ∃ count, table.get a = .ok count ∧
    ∀ parameter, parameter ∈ run.protocol.usedBy a ↔ parameter ∈ count.parameters ∨
      ∃ link ∈ run.graph.allLinks a, ∃ rate,
        run.graph.readRate link.near.port = .ok rate ∧ parameter ∈ rate.parameters
  users_sublist : ∀ parameter, (run.protocol.usersOf parameter).Sublist run.graph.actors
  users_nodup : ∀ parameter, (run.protocol.usersOf parameter).Nodup
  disjoint : run.protocol.modifiedParameters.Disjoint run.protocol.environment
  mem_environment_iff : ∀ parameter, parameter ∈ run.protocol.environment ↔
    parameter ∉ run.protocol.modifiedParameters ∧ ∃ port ∈ run.graph.ports, ∃ rate,
      run.graph.readRate port = .ok rate ∧ parameter ∈ rate.parameters
  sourced : ∀ parameter, run.protocol.usersOf parameter ≠ [] →
    parameter ∈ run.protocol.modifiedParameters ∨ parameter ∈ run.protocol.environment
  occurs : ∀ a ∈ run.graph.actors, ∀ count, table.get a = .ok count →
    ∀ parameter ∈ count.parameters, ∃ port ∈ run.graph.ports, ∃ rate,
      run.graph.readRate port = .ok rate ∧ parameter ∈ rate.parameters
  set_by : ∀ parameter ∈ run.protocol.modifiedParameters, ∃ source feeder,
    run.IsSetBy parameter source feeder

variable {origin : Graph} {table : Repetitions} {run : Run}

/-- The actor that feeds the period actor of a parameter is noted to set the parameter, and no other
actor is. -/
theorem Located.exists_isSetBy (h : run.Located origin)
    (hclassifies : run.protocol.Classifies run.graph run.graph.ports) {parameter : String}
    (hparameter : parameter ∈ run.protocol.modifiedParameters) :
    ∃ source feeder, run.IsSetBy parameter source feeder := by
  have hg := h.grown.1
  have hnodup : run.protocol.modifiedParameters.Nodup := h.keys_eq ▸ hg.nodup_parameters
  obtain ⟨⟨_, sources⟩, hentry, rfl⟩ := List.mem_map.mp hparameter
  obtain ⟨source, feeder, rfl, hlookup, hmodified⟩ := hclassifies.settles _ hentry
  have hsource := h.source?_eq_some_iff.mpr hentry
  -- The noted feeder is the one in the graph, which the channel to the period actor starts from.
  obtain ⟨_, hfeeder, hfeeds⟩ := h.feeds hsource
  obtain rfl := Option.some.inj (hfeeder.symm.trans hlookup)
  have hmem := hfeeds.feeder_mem hg
  refine ⟨source, _, Assoc.lookup_eq_some_of_mem hnodup hentry, hsource, hfeeds.source_mem,
    Workspace.feederOf_eq_ok_iff.mpr hlookup, hmem, fun a ha => ⟨fun hset => ?_, ?_⟩⟩
  · obtain ⟨_, hother, hid⟩ := h.feeder_of_mem_modifiedBy hset hsource
    obtain rfl := Option.some.inj (hother.symm.trans hlookup)
    exact hg.actor_eq_of_id ha hmem hid.symm
  · rintro rfl
    exact Protocol.mem_modifiedBy_iff.mpr hmodified

namespace Prepared

variable (h : run.Prepared origin table)
include h

/-- Actors of the graph differ in their handles, so an actor uses what is recorded under its
handle. -/
theorem mem_usedBy_iff_mem_usersOf {a : Actor} (ha : a ∈ run.graph.actors) {parameter : String} :
    parameter ∈ run.protocol.usedBy a ↔ a ∈ run.protocol.usersOf parameter := by
  rw [Protocol.mem_usedBy_iff h.in_step]
  constructor
  · rintro ⟨user, huser, hid⟩
    rwa [← h.grown.1.actor_eq_of_id (h.mem_usersOf_iff.mp huser).1 ha hid]
  · exact fun huser => ⟨a, huser, rfl⟩

/-- What an actor uses is in the rate of a port: a rate at one of its links is, and so is what its
firing count depends on. -/
theorem exists_port_of_uses {a : Actor} (ha : a ∈ run.graph.actors) {parameter : String}
    (huses : run.graph.uses table parameter a = true) :
    ∃ port ∈ run.graph.ports, parameter ∈ run.graph.rateParameters port := by
  obtain hcount | ⟨link, hlink, hrate⟩ := Graph.uses_iff.mp huses
  · exact h.found.exists_rateParameters h.grown.1 ha hcount
  · have hchannel := ((h.grown.1.mem_allLinks ha).mp hlink).1
    exact ⟨link.near.port, (h.grown.1.joins _ hchannel link.direction).port_mem,
      Graph.mem_rateParameters_iff.mpr hrate⟩

private theorem classified (hclassifies : run.protocol.Classifies run.graph run.graph.ports) :
    run.Classified table where
  mem_usersOf_iff := fun a ha parameter => (h.mem_usedBy_iff_mem_usersOf ha).symm
  mem_usedBy_iff := fun a ha => ⟨table.count a, h.solved.get_eq a ha, fun parameter => by
    rw [h.mem_usedBy_iff_mem_usersOf ha, h.mem_usersOf_iff, and_iff_right ha, Graph.uses_iff]⟩
  users_sublist := fun parameter => h.usersOf_eq parameter ▸ List.filter_sublist
  users_nodup := fun parameter =>
    h.usersOf_eq parameter ▸ (List.Nodup.of_map _ h.grown.1.nodup_actor_ids).filter _
  disjoint := hclassifies.disjoint
  mem_environment_iff := fun parameter => by
    rw [hclassifies.mem_environment_iff]
    simp only [Graph.mem_rateParameters_iff]
  sourced := by
    intro parameter hused
    obtain ⟨user, huser⟩ := List.exists_mem_of_ne_nil _ hused
    obtain ⟨hmem, huses⟩ := h.mem_usersOf_iff.mp huser
    obtain ⟨port, hport, hparameter⟩ := h.exists_port_of_uses hmem huses
    exact hclassifies.covers hport hparameter
  occurs := by
    intro a ha count hcount parameter hparameter
    obtain rfl := Repetitions.count_of_get_eq_ok hcount
    obtain ⟨port, hport, hmem⟩ := h.found.exists_rateParameters h.grown.1 ha hparameter
    exact ⟨port, hport, Graph.mem_rateParameters_iff.mp hmem⟩
  set_by := fun _ => h.exists_isSetBy hclassifies

end Prepared

end Run

namespace Pass

/-- The passes between the sources and the wiring leave the parameters where they come from. -/
theorem keeps_classifies (pass : Pass) (hpass : pass ∉ [.periodActors, .sources, .wiring]) :
    pass.run.Keeps fun run => run.protocol.Classifies run.graph run.graph.ports :=
  keeps_run_of_uses (P := fun g p => p.Classifies g g.ports)
    (fun _ _ uses h => h.withUses uses) hpass

/-- After the users are noted nothing more is found out about parameters, they are only
delivered. -/
theorem keeps_protocol {p : Protocol} {pass : Pass} (hpass : pass ∈ [.safety, .wiring, .liveness]) :
    pass.run.Keeps fun run => ∃ connected, run.protocol = { p with connected } := by
  let P : Graph → Protocol → Prop := fun _ p' => ∃ connected, p' = { p with connected }
  cases pass with
  | safety => exact keeps_checkSafety (P := P)
  | wiring =>
    refine keeps_wiring (P := P) (fun _ => ⟨fun _ _ _ _ _ => id, fun _ _ _ _ _ => id⟩) ?_
    rintro _ _ ⟨_, rfl⟩
    exact ⟨true, rfl⟩
  | liveness => exact fun run => keeps_lookForCycle (P := P) run
  | _ => exact absurd hpass (by decide)

end Pass

namespace Analyzer

variable {g : Graph} {config : Config} {before run : Run}

private theorem classifies_of_arrive (hg : g.WellFormed)
    (h : arrive g config .users = some before) :
    before.protocol.Classifies before.graph before.graph.ports := by
  -- The sources were identified two passes before, and the equations were solved in between.
  obtain ⟨previous, next, hprevious, hbalance, rfl⟩ := Pass.arrive_step
    [.periodActors, .structural, .rates, .sources] (by decide) (by decide) (by decide) h
  obtain ⟨first, _, hfirst, hsources, rfl⟩ := Pass.arrive_step
    [.periodActors, .structural, .rates] (by decide) (by decide) (by decide) hprevious
  have hsourced := (sourced_of_arrive_sources hg hfirst).sourced
  obtain ⟨w, hidentify, rfl⟩ := Pass.sources_eq_ok hsources
  have hclassifies := Workspace.identifySources_classifies hsourced.rates_agree
    hsourced.unexplored.environment_eq hidentify
  have hkept := (Pass.keeps_classifies .balance (by decide)).of_ok hclassifies hbalance
  exact hkept

/-- What holds when a pass is done, and is kept by the passes after it, holds when the analysis ends,
also when it ends with a failure. -/
theorem after_conduct {P : Graph → Protocol → Prop} {target : Pass}
    (h : arrive g config target = some before) (hrun : target.run before = .ok () run)
    (hP : P run.graph run.protocol) (hkeeps : ∀ later, target :: later <:+ Pass.all →
      ∀ pass ∈ later, pass.run.Keeps fun run => P run.graph run.protocol) :
    P (conduct.after (Run.start g config)).graph (conduct.after (Run.start g config)).protocol := by
  obtain ⟨later, hsuffix, hresume⟩ := Pass.runAll_of_arrive h
  have hpasses : P ((Pass.runAll Pass.all).after (opening g config)).graph
      ((Pass.runAll Pass.all).after (opening g config)).protocol := by
    rw [Pass.resume_of_ok hrun] at hresume
    split at hresume
    · rw [after_of_ok hresume]
      exact hP
    · have hafter := Pass.keeps_runAll (hkeeps later hsuffix) run hP
      unfold after at hafter ⊢
      rwa [hresume]
  have hconduct : conduct.after (Run.start g config) =
      (Pass.runAll Pass.all >>= fun _ => sumUp).after (opening g config) := by
    unfold after
    rw [conduct_eq]
  rw [hconduct]
  exact after_bind (P := fun final : Run => P final.graph final.protocol) hpasses
    fun _ => keeps_sumUp

end Analyzer

namespace Parameters

/-- Assume that an analysis has passed the noting of users with a repetition table. Then the users
of a parameter are exactly the actors that have it in their count or in a rate at one of their
links, each once and in the order of the graph. The environment consists of the parameters in the
rates of ports that have no modifier, and every parameter that has a user has a modifier or is in
the environment. Every parameter of a count is in the rate of some port. Every parameter that has a
modifier has one period actor, which is fed by the one actor that sets the parameter. None of this
changes until the analysis ends. -/
theorem users_classified {g : Graph} (hg : g.Reachable) {config : Config} {before run : Run}
    {table : Repetitions} (hbefore : Analyzer.arrive g config .users = some before)
    (hrun : Pass.users.run before = .ok () run) (htable : run.table = some table) :
    run.Classified table ∧ ∃ connected,
      (Analyzer.conduct.after (Run.start g config)).protocol = { run.protocol with connected } := by
  have hprepared := Analyzer.prepared_of_users hg.wellFormed hbefore hrun htable
  have hclassifies := (Pass.keeps_classifies .users (by decide)).of_ok
    (Analyzer.classifies_of_arrive hg.wellFormed hbefore) hrun
  refine ⟨hprepared.classified hclassifies, ?_⟩
  refine Analyzer.after_conduct (P := fun _ p => ∃ connected, p = { run.protocol with connected })
    hbefore hrun ⟨_, rfl⟩ fun later hlater pass hpass => Pass.keeps_protocol ?_
  obtain rfl : later = [.safety, .wiring, .liveness] := by
    simpa [Pass.all, List.suffix_cons_iff] using hlater
  exact hpass

/-- What is known about parameters in an analysis that gets past the noting of users with a repetition
table. -/
def noted? (g : Graph) (config : Config) : Option Protocol :=
  (Analyzer.arrive g config .users).bind fun before =>
    match Pass.users.run before with
    | .ok _ run => run.table.map fun _ => run.protocol
    | .error _ _ => none

/-- A chain of three actors. The first sets `p` at every second firing, the second takes `p` tokens
and sends `q` tokens on. -/
def chained : Graph :=
  Graph.performAll (.empty none)
    [ .addActor "a" "A" 0 false, .addActor "b" "B" 0 false, .addActor "c" "C" 0 false,
      .addPort "A" "out" .output (some "1"), .addPort "B" "in" .input (some "p"),
      .addPort "B" "out" .output (some "q"), .addPort "C" "in" .input (some "q"),
      .addChannel ("a", "out") ("b", "in") {}, .addChannel ("b", "out") ("c", "in") {},
      .addModifier { type := "A", parameter := "p", kind := "int", period := "2" } ]

theorem users_classified_chained :
    ∃ before run table, Analyzer.arrive chained {} .users = some before ∧
      Pass.users.run before = .ok () run ∧ run.table = some table ∧
      (run.protocol.modifiedParameters = ["p"] ∧ run.protocol.environment = ["q"] ∧
        (run.protocol.usersOf "p").map (·.name) = ["a", "b", "<p>"]) ∧
      run.Classified table ∧ ∃ connected, (Analyzer.conduct.after (Run.start chained {})).protocol =
        { run.protocol with connected } := by
  have hnoted : ((noted? chained {}).any fun p => p.modifiedParameters = ["p"] ∧
      p.environment = ["q"] ∧ (p.usersOf "p").map (·.name) = ["a", "b", "<p>"]) = true := by
    decide +kernel
  have hg : chained.Reachable := (Graph.Reachable.empty none).performAll _
  obtain ⟨p, hp⟩ := Option.isSome_iff_exists.mp (Option.isSome_of_any hnoted)
  rw [hp, Option.any_some, decide_eq_true_iff] at hnoted
  obtain ⟨before, hbefore, hp⟩ := Option.bind_eq_some_iff.mp hp
  cases hrun : Pass.users.run before with
  | error e final => simp [hrun] at hp
  | ok _ run =>
    rw [hrun] at hp
    obtain ⟨table, htable, rfl⟩ := Option.map_eq_some_iff.mp hp
    exact ⟨before, run, table, hbefore, hrun, htable, hnoted,
      users_classified hg hbefore hrun htable⟩

end Parameters

end Dataflow
