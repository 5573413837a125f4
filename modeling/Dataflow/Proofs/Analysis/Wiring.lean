import Dataflow.Proofs.Analysis.Safety
import Dataflow.Proofs.Balance.Legible
import Dataflow.Proofs.Protocol.WiringFailures

namespace Dataflow

open Dataflow.Action

namespace Run

/-- A delivery that is due: of a parameter that is set, from its period actor to an actor that uses
it and is neither the period actor nor sets the parameter. -/
structure IsDue (run : Run) (table : Repetitions) (d : Delivery) : Prop where
  modified : ∃ m ∈ run.graph.modifiers, m.parameter = d.parameter
  source_eq : run.protocol.source? d.parameter = some d.source
  source_type : d.source.type = periodType d.parameter
  user_mem : d.user ∈ run.graph.actors
  uses : run.graph.uses table d.parameter d.user = true
  ne_source : d.user.id ≠ d.source.id
  not_setter : d.parameter ∉ run.protocol.modifiedBy d.user

/-- A graph that differs from that of a run by one channel for each delivery that is due, each from
a port of its own, and by ports. -/
structure Wired (run : Run) (table : Repetitions) (g : Graph) (created : List Channel) : Prop where
  actors_eq : g.actors = run.graph.actors
  channels_eq : g.channels = run.graph.channels ++ created
  delivers : ∃ due : List Delivery, due.Nodup ∧ (∀ d, d ∈ due ↔ run.IsDue table d) ∧
    List.Forall₂ (Delivers table run.graph g) due created
  nodup_outputs : (created.map (·.source.port)).Nodup

/-- How a run stands when the safety check was carried out. -/
structure Checked (origin : Graph) (table : Repetitions) (run : Run) : Prop where
  prepared : Prepared origin table { run with safe := false }
  harmless : run.safe = true → ¬ ∃ m ∈ run.graph.modifiers, ∃ user ∈ run.graph.actors,
    run.Misuses table m.parameter user

variable {origin : Graph} {table : Repetitions} {run : Run}

/-- The check writes into the journal, and it succeeds only where there is no misuse. -/
theorem Prepared.checkSafety_eq_ok (h : run.Prepared origin table)
    {verdict : Verdict Unit Misuse} {w : Workspace}
    (hcheck : Workspace.checkSafety table run.toWorkspace = .ok verdict w) :
    (∃ journal, w = { run.toWorkspace with journal }) ∧ (verdict = .success () →
      ¬ ∃ m ∈ run.graph.modifiers, ∃ user ∈ run.graph.actors,
        run.Misuses table m.parameter user) := by
  obtain ⟨hnone, journal, hcases⟩ | ⟨misuse, -, journal, hcases⟩ := h.checkSafety_cases
  · rw [hcheck] at hcases
    cases hcases
    exact ⟨⟨journal, rfl⟩, fun _ => h.findSome?_eq_none_iff.mp hnone⟩
  · rw [hcheck] at hcases
    cases hcases
    exact ⟨⟨journal, rfl⟩, fun hverdict => by cases hverdict⟩

namespace Checked

variable (h : run.Checked origin table)
include h

private theorem deliverable : Workspace.Deliverable table run.protocol run.graph where
  source_mem := fun _ _ hsource => (h.prepared.get_source hsource).1
  user_mem := fun _ _ huser => (h.prepared.mem_usersOf_iff.mp huser).1
  legible := fun _ ha => h.prepared.found.legible h.prepared.grown.1 ha

theorem harmless_of_safe (hsafe : run.safe = true) : Workspace.Harmless table run.protocol := by
  intro parameter source hsource user huser
  obtain ⟨hmem, huses⟩ := h.prepared.mem_usersOf_iff.mp huser
  refine ⟨h.deliverable.legible user hmem, ?_⟩
  by_contra hdivides
  obtain ⟨m, hm, rfl⟩ := h.prepared.exists_source_iff.mp ⟨source, hsource⟩
  refine h.harmless hsafe ⟨m, hm, user, hmem, ?_⟩
  exact (misuses_iff hsource).mpr ⟨huses, by simpa using hdivides⟩

private theorem mem_due_iff {d : Delivery} : d ∈ run.protocol.due ↔ run.IsDue table d := by
  rw [Protocol.mem_due_iff h.prepared.in_step]
  constructor
  · rintro ⟨hsource, huser, hne, hsetter⟩
    obtain ⟨hmem, huses⟩ := h.prepared.mem_usersOf_iff.mp huser
    obtain ⟨feeder, -, hfeeds⟩ := h.prepared.feeds hsource
    exact ⟨h.prepared.exists_source_iff.mp ⟨d.source, hsource⟩, hsource, hfeeds.type_eq, hmem,
      huses, hne, hsetter⟩
  · intro hd
    exact ⟨hd.source_eq, h.prepared.mem_usersOf_iff.mpr ⟨hd.user_mem, hd.uses⟩, hd.ne_source,
      hd.not_setter⟩

private theorem nodup_due : run.protocol.due.Nodup := by
  refine Protocol.nodup_due h.prepared.in_step fun parameter => ?_
  have husers : run.protocol.usersOf parameter = _ := h.prepared.usersOf_eq parameter
  rw [husers]
  exact (List.Nodup.of_map _ h.prepared.grown.1.nodup_actor_ids).filter _

theorem wires {created : List Channel} {w : Workspace}
    (hconnect : Workspace.connectSources table run.toWorkspace = .ok created w) :
    Wires table run.graph w.graph run.protocol.due created ∧
      w.protocol = { run.protocol with connected := true } :=
  Workspace.connectSources_wires h.prepared.grown.1 h.deliverable hconnect

private theorem wired {created : List Channel} {w : Workspace}
    (hconnect : Workspace.connectSources table run.toWorkspace = .ok created w) :
    run.Wired table w.graph created :=
  have hwires := (h.wires hconnect).1
  ⟨hwires.actors_eq, hwires.channels_eq,
    ⟨run.protocol.due, h.nodup_due, fun _ => h.mem_due_iff, hwires.delivers⟩, hwires.nodup_outputs⟩

end Checked

end Run

/-- At the wiring the safety check was carried out, if there is a table. -/
theorem Analyzer.checked_of_arrive {origin : Graph} {config : Config} {run : Run}
    {table : Repetitions} (hg : origin.WellFormed)
    (h : arrive origin config .wiring = some run) (htable : run.table = some table) :
    run.Checked origin table := by
  obtain ⟨previous, next, hprevious, hrun, rfl⟩ := Pass.arrive_step
    [.periodActors, .structural, .rates, .sources, .balance, .users]
    (by decide) (by decide) (by decide) h
  obtain ⟨hnone, rfl⟩ | ⟨found, verdict, w, hfound, hcheck, hresult⟩ := Pass.safety_eq_ok hrun
  · have hnone' : next.table = some table := htable
    rw [hnone] at hnone'
    cases hnone'
  · have hsame : next.table = previous.table := by
      obtain ⟨-, rfl⟩ | ⟨_, _, -, -, rfl⟩ := hresult <;> rfl
    obtain rfl : found = table := by
      have htable' : next.table = some table := htable
      rwa [hsame, hfound, Option.some.injEq] at htable'
    have hprepared := prepared_of_arrive hg hprevious hfound
    obtain ⟨⟨journal, rfl⟩, hharmless⟩ := hprepared.checkSafety_eq_ok hcheck
    obtain ⟨hverdict, rfl⟩ | ⟨_, _, -, -, rfl⟩ := hresult
    · exact ⟨{ hprepared with safe_eq := rfl }, fun _ => hharmless hverdict⟩
    · exact ⟨{ hprepared with safe_eq := rfl }, fun hsafe => by cases hsafe⟩

namespace Wiring

/-- Whenever an analysis arrives at the wiring with a repetition table and `connectSources` returns,
it has added exactly one channel for each parameter that is set and each user of it other than the
period actor and the actor that sets the parameter, and no other channel and no actor. The pass does
so if the configuration wants it and the safety check has succeeded, and otherwise leaves the graph
as it was. It never fails with an arithmetic failure. -/
theorem wiring_delivers {g : Graph} (hg : g.Reachable) {config : Config} {run : Run}
    {table : Repetitions} (hrun : Analyzer.arrive g config .wiring = some run)
    (htable : run.table = some table) :
    (∀ created w, Workspace.connectSources table run.toWorkspace = .ok created w →
        run.Wired table w.graph created) ∧
      (∀ run', Pass.wiring.run run = .ok () run' →
        (run.config.connectUsers = true ∧ run.safe = true ∧
            ∃ created, run.Wired table run'.graph created) ∨
          ((run.config.connectUsers = false ∨ run.safe = false) ∧ run'.graph = run.graph)) ∧
      ∀ e run', Pass.wiring.run run = .error e run' → e.isArithmetic = false := by
  have h := Analyzer.checked_of_arrive hg.wellFormed hrun htable
  refine ⟨fun created w => h.wired, fun run' hok => ?_, fun e run' herror => ?_⟩
  · rw [Pass.wiring_run] at hok
    obtain ⟨hgate, journal, heq⟩ | ⟨found, hwanted, hsafe, hfound, heq⟩ :=
      Pass.wireIf_cases run.config.connectUsers run.safe run.table run
    · rw [heq] at hok
      cases hok
      refine .inr ⟨?_, rfl⟩
      simpa [htable] using hgate
    · obtain rfl : table = found := Option.some.inj (htable.symm.trans hfound)
      rw [heq] at hok
      obtain ⟨created, w, journal, hconnect, rfl⟩ := Pass.wire_eq_ok hok
      have hwired : run.Wired table w.graph created := h.wired hconnect
      exact .inl ⟨hwanted, hsafe, created, hwired⟩
  · rw [Pass.wiring_run] at herror
    obtain ⟨-, journal, heq⟩ | ⟨found, -, hsafe, hfound, heq⟩ :=
      Pass.wireIf_cases run.config.connectUsers run.safe run.table run
    · rw [heq] at herror
      cases herror
    · obtain rfl : table = found := Option.some.inj (htable.symm.trans hfound)
      rw [heq] at herror
      obtain ⟨w, hconnect⟩ := Pass.wire_eq_error herror
      exact Workspace.unarithmetic_of_connectSources (h.harmless_of_safe hsafe) hconnect

/-- How many channels the wiring adds, in an analysis that arrives there with a table. -/
def created? (g : Graph) (config : Config) : Option Nat :=
  (Analyzer.arrive g config .wiring).bind fun run => run.table.bind fun table =>
    match Workspace.connectSources table run.toWorkspace with
    | .ok created _ => some created.length
    | .error _ _ => none

/-- A producer that sets `p` at every firing and sends `p` tokens, and a consumer that takes one at
a time. -/
def fanned : Graph :=
  Graph.performAll (.empty none)
    [ .addActor "a" "A" 0 false, .addActor "b" "B" 0 false, .addPort "A" "out" .output (some "p"),
      .addPort "B" "in" .input (some "1"), .addChannel ("a", "out") ("b", "in") {},
      .addModifier { type := "A", parameter := "p", kind := "int", period := "1" } ]

theorem wiring_delivers_fanned :
    ∃ run table, Analyzer.arrive fanned {} .wiring = some run ∧ run.table = some table ∧
      ∃ created w, Workspace.connectSources table run.toWorkspace = .ok created w ∧
        created.length = 1 ∧ run.Wired table w.graph created := by
  have hcreated : created? fanned {} = some 1 := by decide +kernel
  have hg : fanned.Reachable := (Graph.Reachable.empty none).performAll _
  obtain ⟨run, hrun, htables⟩ := Option.bind_eq_some_iff.mp hcreated
  obtain ⟨table, htable, hlength⟩ := Option.bind_eq_some_iff.mp htables
  split at hlength
  · rename_i created w hconnect
    refine ⟨run, table, hrun, htable, created, w, hconnect, Option.some.inj hlength, ?_⟩
    exact (wiring_delivers hg hrun htable).1 created w hconnect
  · cases hlength

end Wiring

end Dataflow
