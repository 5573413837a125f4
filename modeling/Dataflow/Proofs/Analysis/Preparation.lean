import Dataflow.Proofs.Analysis.Stages
import Dataflow.Proofs.Balance.Completeness
import Dataflow.Proofs.Protocol.Settlement
import Dataflow.Proofs.Protocol.Users

namespace Dataflow

open Dataflow.Action

namespace Workspace

private theorem Sourced.of_rests {origin : Graph} {done : List Modifier} {w w' : Workspace}
    (hw : Sourced origin done w) (h : Rests w.graph w.protocol w') : Sourced origin done w' where
  grown := h.graph_eq ▸ hw.grown
  ports_new := h.graph_eq ▸ hw.ports_new
  channels_new := h.graph_eq ▸ hw.channels_new
  keys_eq := h.protocol_eq ▸ hw.keys_eq
  fed := by
    rw [h.graph_eq, h.protocol_eq]
    exact hw.fed
  unexplored := h.protocol_eq ▸ hw.unexplored
  rates_agree := h.graph_eq ▸ h.agrees

end Workspace

namespace Run

/-- How a run stands when the period actors are in the graph and nothing was found out but rates. -/
structure Sourced (origin : Graph) (run : Run) : Prop where
  sourced : Workspace.Sourced origin origin.modifiers run.toWorkspace
  table_eq : run.table = none
  safe_eq : run.safe = false

/-- How a run stands when its graph has the period actors, and it is settled who sets the
parameters. -/
structure Located (origin : Graph) (run : Run) : Prop where
  grown : origin.Grown run.graph
  ports_new : ∀ p ∈ run.graph.ports, p ∈ origin.ports ∨ p.name = "in" ∨
    ∃ parameter : String, p.name = s!"_{parameter}_out"
  channels_new : ∀ c ∈ run.graph.channels, c ∈ origin.channels ∨ c.target.port.name = "in"
  keys_eq : run.protocol.modifiedParameters = run.graph.modifiers.map (·.parameter)
  fed : run.protocol.Fed run.graph
  settled : run.protocol.Settled
  connected_eq : run.protocol.connected = false
  rates_agree : run.rates.Agrees run.graph
  safe_eq : run.safe = false

/-- How a run stands when it has a table besides. -/
structure Balanced (origin : Graph) (table : Repetitions) (run : Run) : Prop
    extends run.Located origin where
  table_eq : run.table = some table
  found : Balance.Found run.graph table
  written : ∀ a ∈ run.graph.actors, ∃ text, (table.count a).render = .ok text

/-- How a run stands when the users of all parameters are noted besides. -/
structure Prepared (origin : Graph) (table : Repetitions) (run : Run) : Prop
    extends run.Balanced origin table where
  in_step : run.protocol.uses.InStep
  usersOf_eq : ∀ parameter,
    run.protocol.usersOf parameter = run.graph.actors.filter (run.graph.uses table parameter)

private theorem Located.of_rests {origin : Graph} {run run' : Run} (hrun : run.Located origin)
    (h : Workspace.Rests run.graph run.protocol run'.toWorkspace) (hsafe : run'.safe = run.safe) :
    run'.Located origin where
  grown := h.graph_eq ▸ hrun.grown
  ports_new := h.graph_eq ▸ hrun.ports_new
  channels_new := h.graph_eq ▸ hrun.channels_new
  keys_eq := by
    rw [h.graph_eq, h.protocol_eq]
    exact hrun.keys_eq
  fed := by
    rw [h.graph_eq, h.protocol_eq]
    exact hrun.fed
  settled := h.protocol_eq ▸ hrun.settled
  connected_eq := h.protocol_eq ▸ hrun.connected_eq
  rates_agree := h.graph_eq ▸ h.agrees
  safe_eq := hsafe.trans hrun.safe_eq

namespace Located

variable {origin : Graph} {run : Run} {parameter : String} {source : Actor}

theorem source?_eq_some_iff (h : run.Located origin) :
    run.protocol.source? parameter = some source ↔
      (parameter, [source]) ∈ run.protocol.sources :=
  h.settled.source?_eq_some_iff (h.keys_eq ▸ h.grown.1.nodup_parameters)

/-- The parameters that are set in the graph are those that have a period actor. -/
theorem exists_source_iff (h : run.Located origin) :
    (∃ source, run.protocol.source? parameter = some source) ↔
      ∃ m ∈ run.graph.modifiers, m.parameter = parameter := by
  rw [← List.mem_map, ← h.keys_eq, Protocol.modifiedParameters, List.mem_map]
  constructor
  · rintro ⟨source, hsource⟩
    exact ⟨_, h.source?_eq_some_iff.mp hsource, rfl⟩
  · rintro ⟨⟨_, sources⟩, hentry, rfl⟩
    obtain ⟨source, rfl⟩ : ∃ source, sources = [source] := h.settled.single _ hentry
    exact ⟨source, h.source?_eq_some_iff.mpr hentry⟩

theorem feeds (h : run.Located origin) (hsource : run.protocol.source? parameter = some source) :
    ∃ feeder, run.protocol.feeders.lookup source.id = some feeder ∧
      Feeds run.graph feeder parameter source :=
  h.fed.feeds _ (h.source?_eq_some_iff.mp hsource) source (List.mem_singleton_self source)

/-- Who sets a parameter feeds its period actor. -/
theorem feeder_of_mem_modifiedBy (h : run.Located origin) {a : Actor}
    (ha : parameter ∈ run.protocol.modifiedBy a)
    (hsource : run.protocol.source? parameter = some source) :
    ∃ feeder, run.protocol.feeders.lookup source.id = some feeder ∧ feeder.id = a.id := by
  obtain ⟨entry, hentry, rfl⟩ := List.mem_map.mp ha
  obtain ⟨hmem, hid⟩ := List.mem_filter.mp hentry
  obtain ⟨other, feeder, hother, hlookup, hfeeder⟩ := h.settled.setter entry hmem
  rw [h.source?_eq_some_iff.mpr hother, Option.some.injEq] at hsource
  exact ⟨feeder, hsource ▸ hlookup, hfeeder.trans (eq_of_beq hid)⟩

end Located

namespace Prepared

variable {origin : Graph} {table : Repetitions} {run : Run} (h : run.Prepared origin table)
include h

theorem solved : Balance.Solved run.graph table :=
  h.found.solved h.grown.1

theorem mem_usersOf_iff {parameter : String} {user : Actor} :
    user ∈ run.protocol.usersOf parameter ↔
      user ∈ run.graph.actors ∧ run.graph.uses table parameter user = true := by
  rw [h.usersOf_eq, List.mem_filter]

end Prepared

section Records

variable {origin : Graph} {table : Repetitions} {run : Run} {level : Level} {message : String}

private theorem Sourced.noted (h : run.Sourced origin) : (run.noted level message).Sourced origin :=
  ⟨{ h.sourced with }, h.table_eq, h.safe_eq⟩

private theorem Located.noted (h : run.Located origin) : (run.noted level message).Located origin :=
  { h with }

private theorem Balanced.noted (h : run.Balanced origin table) :
    (run.noted level message).Balanced origin table :=
  { h with }

private theorem Prepared.noted (h : run.Prepared origin table) :
    (run.noted level message).Prepared origin table :=
  { h with }

end Records

end Run

namespace Analyzer

open Workspace

variable {origin : Graph} {config : Config} {run : Run}

private theorem sourced_of_arrive_structural (hg : origin.WellFormed)
    (h : arrive origin config .structural = some run) : run.Sourced origin := by
  obtain ⟨previous, next, hprevious, hrun, rfl⟩ :=
    Pass.arrive_step [] (by decide) (by decide) (by decide) h
  obtain ⟨w, hinsert, rfl⟩ := Pass.periodActors_eq_ok hrun
  rw [Pass.eq_of_arrive_self hprevious] at hinsert ⊢
  exact .noted ⟨insertPeriodActors_sourced hg (.empty _) hinsert, rfl, rfl⟩

theorem sourced_of_arrive_rates (hg : origin.WellFormed)
    (h : arrive origin config .rates = some run) : run.Sourced origin := by
  obtain ⟨previous, next, hprevious, hrun, rfl⟩ :=
    Pass.arrive_step [.periodActors] (by decide) (by decide) (by decide) h
  have hsourced := sourced_of_arrive_structural hg hprevious
  obtain ⟨findings, -, rfl⟩ := Pass.structural_eq_ok hrun
  exact .noted ⟨hsourced.sourced, hsourced.table_eq, hsourced.safe_eq⟩

theorem sourced_of_arrive_sources (hg : origin.WellFormed)
    (h : arrive origin config .sources = some run) : run.Sourced origin := by
  obtain ⟨previous, next, hprevious, hrun, rfl⟩ :=
    Pass.arrive_step [.periodActors, .structural] (by decide) (by decide) (by decide) h
  have hsourced := sourced_of_arrive_rates hg hprevious
  obtain ⟨w, hparse, rfl⟩ := Pass.rates_eq_ok hrun
  have hrests := parseRates_rests.of_ok ⟨rfl, rfl, hsourced.sourced.rates_agree⟩ hparse
  exact .noted ⟨hsourced.sourced.of_rests hrests, hsourced.table_eq, hsourced.safe_eq⟩

theorem located_of_arrive (hg : origin.WellFormed) (h : arrive origin config .balance = some run) :
    run.Located origin ∧ run.protocol.uses = .empty ∧ run.table = none := by
  obtain ⟨previous, next, hprevious, hrun, rfl⟩ := Pass.arrive_step
    [.periodActors, .structural, .rates] (by decide) (by decide) (by decide) h
  obtain ⟨hsourced, htable, hsafe⟩ := sourced_of_arrive_sources hg hprevious
  obtain ⟨w, hidentify, rfl⟩ := Pass.sources_eq_ok hrun
  have hsettling := identifySources_settling hsourced.rates_agree hsourced.unexplored.modified_eq
    hidentify
  have hsettled := hsettling.settled
  obtain ⟨hgraph, hrates, ⟨hsources, hfeeders, huses, hconnected⟩, -, -⟩ := hsettling
  refine ⟨.noted ?_, huses.trans hsourced.unexplored.uses_eq, htable⟩
  exact {
    grown := hgraph ▸ hsourced.grown
    ports_new := hgraph ▸ hsourced.ports_new
    channels_new := hgraph ▸ hsourced.channels_new
    keys_eq := by
      show w.protocol.sources.map Prod.fst = w.graph.modifiers.map (·.parameter)
      rw [hsources, hgraph, hsourced.grown.2.modifiers_eq]
      exact hsourced.keys_eq
    fed := hgraph ▸ hsourced.fed.congr hsources hfeeders
    settled := hsettled
    connected_eq := hconnected.trans hsourced.unexplored.connected_eq
    rates_agree := hgraph ▸ hrates
    safe_eq := hsafe }

theorem balanced_of_arrive (hg : origin.WellFormed) {table : Repetitions}
    (h : arrive origin config .users = some run) (htable : run.table = some table) :
    run.Balanced origin table ∧ run.protocol.uses = .empty := by
  obtain ⟨previous, next, hprevious, hrun, rfl⟩ := Pass.arrive_step
    [.periodActors, .structural, .rates, .sources] (by decide) (by decide) (by decide) h
  obtain ⟨hlocated, huses, hnone⟩ := located_of_arrive hg hprevious
  obtain ⟨start, verdict, w, hstart, hsolve, hresult⟩ := Pass.balance_eq_ok hrun
  have hrests := solve_rests.of_ok ⟨rfl, rfl, hlocated.rates_agree⟩ hsolve
  obtain ⟨found, rfl, rfl⟩ | ⟨evidence, d, -, -, rfl⟩ := hresult
  · obtain rfl : found = table := by simpa [Run.noted] using htable
    have hmem : ∀ a ∈ start, a ∈ previous.graph.actors := by
      intro a ha
      obtain ⟨name, hname⟩ := hstart a ha
      exact (Graph.actorNamed_eq_ok hname).1
    obtain ⟨cache, hbalance⟩ := Workspace.solve_eq_ok hsolve
    have hfound : Balance.Found previous.graph found :=
      ⟨start, _, cache, hmem, hlocated.rates_agree, hbalance⟩
    have hwritten := fun a (ha : a ∈ previous.graph.actors) =>
      solve_written (hfound.solved hlocated.grown.1) hsolve ha
    refine ⟨.noted ⟨hlocated.of_rests hrests rfl, rfl, ?_, ?_⟩, ?_⟩
    · exact hrests.graph_eq ▸ hfound
    · exact hrests.graph_eq ▸ hwritten
    · exact (congrArg Protocol.uses hrests.protocol_eq).trans huses
  · have hnone' : previous.table = some table := htable
    rw [hnone] at hnone'
    cases hnone'

/-- After the users are noted everything is prepared, if there is a table. -/
theorem prepared_of_users (hg : origin.WellFormed) {next : Run} {table : Repetitions}
    (h : arrive origin config .users = some run) (hrun : Pass.users.run run = .ok () next)
    (htable : next.table = some table) : next.Prepared origin table := by
  obtain ⟨hnone, rfl⟩ | ⟨found, w, hfound, hidentify, rfl⟩ := Pass.users_eq_ok hrun
  · rw [hnone] at htable
    cases htable
  · have htable : run.table = some table := htable
    obtain ⟨hbalanced, huses⟩ := balanced_of_arrive hg h htable
    obtain rfl : found = table := by simpa [hfound] using htable
    obtain ⟨hgraph, hrates, hsame, hstep, husers⟩ :=
      identifyUsers_used hbalanced.grown.1 hbalanced.rates_agree huses hidentify
    exact {
      grown := hgraph ▸ hbalanced.grown
      ports_new := hgraph ▸ hbalanced.ports_new
      channels_new := hgraph ▸ hbalanced.channels_new
      keys_eq := by
        show w.protocol.sources.map Prod.fst = w.graph.modifiers.map (·.parameter)
        rw [hsame.sources_eq, hgraph]
        exact hbalanced.keys_eq
      fed := hgraph ▸ hbalanced.fed.congr hsame.sources_eq hsame.feeders_eq
      settled := hbalanced.settled.congr hsame.sources_eq hsame.feeders_eq hsame.modified_eq
      connected_eq := hsame.connected_eq.trans hbalanced.connected_eq
      rates_agree := hgraph ▸ hrates
      safe_eq := hbalanced.safe_eq
      table_eq := hbalanced.table_eq
      found := hgraph ▸ hbalanced.found
      written := hgraph ▸ hbalanced.written
      in_step := hstep
      usersOf_eq := by
        intro parameter
        show (w.protocol.uses.usersOf parameter).map Prod.snd =
          w.graph.actors.filter (w.graph.uses _ parameter)
        rw [hgraph, husers parameter, List.map_map]
        exact List.map_id _ }

/-- At the safety check everything is prepared, if there is a table. -/
theorem prepared_of_arrive (hg : origin.WellFormed) {table : Repetitions}
    (h : arrive origin config .safety = some run) (htable : run.table = some table) :
    run.Prepared origin table := by
  obtain ⟨previous, next, hprevious, hrun, rfl⟩ := Pass.arrive_step
    [.periodActors, .structural, .rates, .sources, .balance]
    (by decide) (by decide) (by decide) h
  exact .noted (prepared_of_users hg hprevious hrun htable)

end Analyzer

end Dataflow
