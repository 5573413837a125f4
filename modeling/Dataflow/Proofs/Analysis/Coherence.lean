import Dataflow.Proofs.Analysis.Findings

namespace Dataflow

open Dataflow.Action

namespace Report

/-- A report has a finding of a code. -/
def Has (report : Report) (code : String) : Prop :=
  ∃ d ∈ report.diagnostics, d.code = code

/-- What the parts of a report have to do with each other, with the configuration and with the graph
that the analysis has left. -/
structure Coherent (report : Report) (config : Config) (g : Graph) : Prop where
  success_iff_errors : report.success = true ↔ errors report.diagnostics = []
  success_iff_violations : report.success = true ↔ report.violations = []
  payloads_eq : (errors report.diagnostics).map (·.payload) = report.violations.map some
  in_order : ∃ dangling verdict cycles, report.diagnostics =
      dangling ++ report.protocol.environment.map Pass.environmentFinding ++ verdict ++ cycles ∧
    (∀ d ∈ dangling, d.code = "STRUCT001") ∧
    (∀ d ∈ verdict, d.code = "SPDF001" ∨ d.code = "SPDF002") ∧ verdict.length ≤ 1 ∧
    (∀ d ∈ cycles, d.code = "SPDF003") ∧ cycles.length ≤ 1
  table_eq_none_iff : report.table = none ↔ report.Has "SPDF001"
  unsolved_iff : report.solutions = .error .unsolved ↔ report.Has "SPDF001"
  single_error : config.stopOnError = true → (errors report.diagnostics).length ≤ 1
  cyclic_iff : report.Has "SPDF003" ↔ config.checkLiveness = true ∧
    ¬ (config.stopOnError = true ∧ (report.Has "SPDF001" ∨ report.Has "SPDF002")) ∧ ¬ g.Acyclic

private theorem solutions_eq_error_iff (report : Report) :
    report.solutions = .error .unsolved ↔ report.table = none := by
  unfold solutions
  cases report.table <;> simp

end Report

namespace Pass

variable {wanted : Bool} {g : Graph}

theorem length_cyclesFound_le (wanted : Bool) (g : Graph) : (cyclesFound wanted g).length ≤ 1 := by
  unfold cyclesFound
  split
  · exact Option.length_toList_le
  · exact Nat.zero_le 1

/-- The search finds a cycle if it is wanted and there is one. -/
theorem cyclesFound_ne_nil_iff (hg : g.WellFormed) :
    cyclesFound wanted g ≠ [] ↔ wanted = true ∧ ¬ g.Acyclic := by
  rw [← Liveness.check_success_iff hg]
  unfold cyclesFound
  cases wanted <;> cases Liveness.check g <;> simp [Verdict.evidence?, Verdict.isSuccess]

end Pass

private theorem Diagnostic.errors_of_warns {findings : List Diagnostic} {code : String}
    (h : ∀ d ∈ findings, d.Warns code) : Report.errors findings = [] :=
  List.filter_eq_nil_iff.mpr fun d hd => by simp [(h d hd).isError]

private theorem Diagnostic.map_code_of_warns {findings : List Diagnostic} {code : String}
    (h : ∀ d ∈ findings, d.Warns code) :
    findings.map (·.code) = List.replicate findings.length code :=
  List.map_eq_replicate_iff.mpr fun d hd => (h d hd).code_eq

namespace Run

variable {dangling errors : List Diagnostic} {verdicts : List Violation}
  {cycles : List DirectedCycle} {final : Run} {table : Option Repetitions} {safe : Bool}

namespace Judged

variable (h : Judged table safe errors verdicts)
include h

private theorem errors_eq : Report.errors errors = errors := by
  cases h with
  | clear htable => rfl
  | inconsistent htable hsafe hd => simp [Report.errors, hd.isError]
  | misused htable hsafe hd => simp [Report.errors, hd.isError]

private theorem payloads_eq : errors.map (·.payload) = verdicts.map some := by
  cases h with
  | clear htable => rfl
  | inconsistent htable hsafe hd => simp [hd.payload_eq]
  | misused htable hsafe hd => simp [hd.payload_eq]

private theorem length_le : errors.length ≤ 1 := by
  cases h <;> simp

private theorem code_eq {d : Diagnostic} (hd : d ∈ errors) :
    d.code = "SPDF001" ∨ d.code = "SPDF002" := by
  cases h with
  | clear htable => cases hd
  | inconsistent htable hsafe hreports => exact .inl (List.mem_singleton.mp hd ▸ hreports.code_eq)
  | misused htable hsafe hreports => exact .inr (List.mem_singleton.mp hd ▸ hreports.code_eq)

private theorem verdicts_eq_nil_iff : verdicts = [] ↔ errors = [] := by
  cases h <;> simp

/-- There is no table only where the balance equations contradict each other. -/
theorem table_eq_none_iff : table = none ↔ "SPDF001" ∈ errors.map (·.code) := by
  cases h with
  | clear htable => simpa [Option.isSome_iff_ne_none] using htable
  | inconsistent htable hsafe hd => simp [htable, hd.code_eq]
  | misused htable hsafe hd => simpa [hd.code_eq, Option.isSome_iff_ne_none] using htable

/-- An error of the balance equations or of the safety check leaves the run unsafe. -/
theorem errors_eq_nil_of_safe (hsafe : safe = true) : errors = [] := by
  cases h with
  | clear htable => rfl
  | inconsistent htable hmisuse hd => cases hsafe.symm.trans hmisuse
  | misused htable hmisuse hd => cases hsafe.symm.trans hmisuse

end Judged

namespace Concluded

variable (h : final.Concluded dangling errors verdicts cycles)
include h

private theorem errors_eq :
    Report.errors final.diagnostics = errors ++ cycles.map Pass.cycleFinding := by
  have hcycles : Report.errors (cycles.map Pass.cycleFinding) = cycles.map Pass.cycleFinding := by
    refine List.filter_eq_self.mpr fun d hd => ?_
    obtain ⟨cycle, -, rfl⟩ := List.mem_map.mp hd
    rfl
  have hsplit (as bs : List Diagnostic) : Report.errors (as ++ bs) =
      Report.errors as ++ Report.errors bs := List.filter_append ..
  rw [h.diagnostics_eq, hsplit, hsplit, hsplit, Diagnostic.errors_of_warns h.warns,
    Diagnostic.errors_of_warns (Pass.environmentFindings_warn _), h.judged.errors_eq, hcycles]
  rfl

private theorem codes_eq : final.diagnostics.map (·.code) =
    List.replicate dangling.length "STRUCT001" ++
      List.replicate final.protocol.environment.length "SPDF004" ++ errors.map (·.code) ++
      List.replicate cycles.length "SPDF003" := by
  have hcycles : (cycles.map Pass.cycleFinding).map (·.code) =
      List.replicate cycles.length "SPDF003" := by
    rw [List.map_map]
    exact List.map_eq_replicate_iff.mpr fun _ _ => rfl
  rw [h.diagnostics_eq, List.map_append, List.map_append, List.map_append, hcycles,
    Diagnostic.map_code_of_warns h.warns,
    Diagnostic.map_code_of_warns (Pass.environmentFindings_warn _), List.length_map]

private theorem has_iff {code : String} : final.report.Has code ↔
    code ∈ errors.map (·.code) ∨ code = "STRUCT001" ∧ dangling ≠ [] ∨
      code = "SPDF004" ∧ final.protocol.environment ≠ [] ∨ code = "SPDF003" ∧ cycles ≠ [] := by
  have hmem : final.report.Has code ↔ code ∈ final.diagnostics.map (·.code) :=
    List.mem_map.symm
  rw [hmem, h.codes_eq]
  simp only [List.mem_append, List.mem_replicate, ne_eq, List.length_eq_zero_iff]
  tauto

private theorem has_cycle_iff : final.report.Has "SPDF003" ↔ cycles ≠ [] := by
  rw [h.has_iff]
  have hnot : "SPDF003" ∉ errors.map (·.code) := by
    intro hmem
    obtain ⟨d, hd, hcode⟩ := List.mem_map.mp hmem
    obtain hd | hd := h.judged.code_eq hd <;> exact absurd (hcode.symm.trans hd) (by decide)
  simp [hnot]

/-- The balance equations or the safety check have found an error. -/
theorem has_verdict_iff :
    final.report.Has "SPDF001" ∨ final.report.Has "SPDF002" ↔ errors ≠ [] := by
  rw [h.has_iff, h.has_iff]
  have hjudged := h.judged
  generalize final.table = table, final.safe = safe at hjudged
  cases hjudged with
  | clear htable => simp
  | inconsistent htable hsafe hd => simp [hd.code_eq]
  | misused htable hsafe hd => simp [hd.code_eq]

private theorem table_eq_none_iff : final.table = none ↔ final.report.Has "SPDF001" := by
  rw [h.judged.table_eq_none_iff, h.has_iff]
  simp

/-- Where the findings stop at an error, there is no cycle among them. -/
theorem length_errors_le (hstop : final.config.stopOnError = true) :
    (Report.errors final.diagnostics).length ≤ 1 := by
  rw [h.errors_eq, List.length_append, List.length_map]
  have hcycles := h.cycles_eq
  rw [hstop, Bool.true_and] at hcycles
  cases errors with
  | nil =>
    rw [hcycles]
    exact (Nat.zero_add _).trans_le (Pass.length_cyclesFound_le _ _)
  | cons d errors =>
    rw [hcycles]
    exact h.judged.length_le

private theorem cyclic_iff (hg : final.graph.WellFormed) : final.report.Has "SPDF003" ↔
    final.config.checkLiveness = true ∧
      ¬ (final.config.stopOnError = true ∧
        (final.report.Has "SPDF001" ∨ final.report.Has "SPDF002")) ∧ ¬ final.graph.Acyclic := by
  rw [h.has_cycle_iff, h.has_verdict_iff, h.cycles_eq]
  cases hstop : final.config.stopOnError && !errors.isEmpty with
  | true =>
    simp only [if_true, ne_eq, not_true_eq_false, false_iff]
    rintro ⟨-, hgo, -⟩
    exact hgo (by simpa using hstop)
  | false =>
    have hgo : ¬ (final.config.stopOnError = true ∧ errors ≠ []) := by simpa using hstop
    simp only [Bool.false_eq_true, if_false, Pass.cyclesFound_ne_nil_iff hg, hgo,
      not_false_eq_true, true_and]

private theorem coherent (hg : final.graph.WellFormed) :
    final.report.Coherent final.config final.graph where
  success_iff_errors := by
    show (!final.hasErrors) = true ↔ _
    rw [Bool.not_eq_true', Run.hasErrors, List.any_eq_false, Report.errors,
      List.filter_eq_nil_iff]
    exact Iff.rfl
  success_iff_violations := by
    show (!final.hasErrors) = true ↔ final.violations = []
    rw [h.violations_eq, List.append_eq_nil_iff, h.judged.verdicts_eq_nil_iff, List.map_eq_nil_iff,
      ← List.map_eq_nil_iff (f := Pass.cycleFinding), ← List.append_eq_nil_iff, ← h.errors_eq,
      Bool.not_eq_true', Run.hasErrors, List.any_eq_false, Report.errors, List.filter_eq_nil_iff]
  payloads_eq := by
    show (Report.errors final.diagnostics).map (·.payload) = final.violations.map some
    rw [h.errors_eq, h.violations_eq, List.map_append, List.map_append, h.judged.payloads_eq,
      List.map_map, List.map_map]
    rfl
  in_order := by
    refine ⟨dangling, errors, cycles.map Pass.cycleFinding, h.diagnostics_eq,
      fun d hd => (h.warns d hd).code_eq, fun d => h.judged.code_eq, h.judged.length_le, ?_, ?_⟩
    · intro d hd
      obtain ⟨cycle, -, rfl⟩ := List.mem_map.mp hd
      rfl
    · rw [List.length_map, h.cycles_eq]
      split
      · exact Nat.zero_le 1
      · exact Pass.length_cyclesFound_le _ _
  table_eq_none_iff := h.table_eq_none_iff
  unsolved_iff := final.report.solutions_eq_error_iff.trans h.table_eq_none_iff
  single_error := h.length_errors_le
  cyclic_iff := h.cyclic_iff hg

end Concluded

end Run

namespace Analyzer

variable {g : Graph} {config : Config} {run final : Run}

/-- Channels over which the parameters are delivered are added only by an analysis that is to add
them, and that has found the changes of the parameters to be safe. -/
theorem exists_wired (hg : g.WellFormed)
    (h : Pass.runAll Pass.all (opening g config) = .ok () final) :
    ∃ inserted wired, arrive g config .structural = some inserted ∧
      final.graph.channels = inserted.graph.channels ++ wired ∧
      (wired ≠ [] → final.safe = true ∧ final.config.connectUsers = true) := by
  obtain ⟨target, reached, next, journal, harrive, hrun, rfl, -, hlast⟩ := exists_last_pass h
  obtain ⟨htarget, -⟩ | rfl := hlast
  · simp only [List.mem_cons, List.not_mem_nil, or_false] at htarget
    have hsilent : target ∉ [.periodActors, .wiring] := by
      obtain rfl | rfl := htarget <;> decide
    have hbefore : target ∉ [.periodActors, .liveness] := by
      obtain rfl | rfl := htarget <;> decide
    obtain ⟨inserted, hinserted, hgraph, -⟩ := inserted_of_arrive hbefore harrive
    have hnext : next.graph = inserted.graph :=
      (Pass.keeps_run_of_steady (Protocol.steady_graph (· = inserted.graph)) hsilent).of_ok
        hgraph hrun
    exact ⟨inserted, [], hinserted, by rw [List.append_nil, ← hnext], fun hne => absurd rfl hne⟩
  · obtain ⟨_, rfl⟩ := Pass.liveness_eq_ok hrun
    obtain ⟨atWiring, afterWiring, hwiring, hwire, rfl⟩ := Pass.arrive_step
      [.periodActors, .structural, .rates, .sources, .balance, .users, .safety]
      (by decide) (by decide) (by decide) harrive
    obtain ⟨inserted, hinserted, hgraph, -⟩ := inserted_of_arrive (by decide) hwiring
    rw [Pass.wiring_run] at hwire
    obtain ⟨-, _, heq⟩ | ⟨table, hwanted, hsafe, htable, heq⟩ :=
      Pass.wireIf_cases atWiring.config.connectUsers atWiring.safe atWiring.table atWiring
    · rw [heq] at hwire
      cases hwire
      refine ⟨inserted, [], hinserted, ?_, fun hne => absurd rfl hne⟩
      rw [List.append_nil, ← hgraph]
      rfl
    · rw [heq] at hwire
      obtain ⟨created, w, _, hconnect, rfl⟩ := Pass.wire_eq_ok hwire
      have hwires := ((checked_of_arrive hg hwiring htable).wires hconnect).1
      exact ⟨inserted, created, hinserted, hgraph ▸ hwires.channels_eq, fun _ => ⟨hsafe, hwanted⟩⟩

/-- Channels that deliver parameters are added only if the configuration wants them and neither the
balance equations nor the safety check has found an error. -/
theorem exists_wired_of_run {s s' : AnalyzerState} {report : Report} (hs : s.graph.Reachable)
    (h : Analyzer.run s = .ok report s') :
    ∃ inserted wired, arrive s.graph s.analyzer.config .structural = some inserted ∧
      s'.graph.channels = inserted.graph.channels ++ wired ∧
      (wired ≠ [] → ¬ report.Has "SPDF001" ∧ ¬ report.Has "SPDF002" ∧
        s.analyzer.config.connectUsers = true) := by
  obtain ⟨final, hall, rfl, hgraph, -⟩ := run_eq_ok h
  obtain ⟨dangling, errors, verdicts, cycles, hconcluded⟩ := concluded_of_runAll hall
  have hconfig : final.config = s.analyzer.config := Pass.runAll_keeps_config hall
  obtain ⟨inserted, wired, hinserted, hchannels, hwired⟩ := exists_wired hs.wellFormed hall
  rw [hconfig] at hwired
  refine ⟨inserted, wired, hinserted, hgraph ▸ hchannels, fun hne => ?_⟩
  obtain ⟨hsafe, hwanted⟩ := hwired hne
  have hnot := mt hconcluded.has_verdict_iff.mp
    (not_not.mpr (hconcluded.judged.errors_eq_nil_of_safe hsafe))
  exact ⟨fun h => hnot (.inl h), fun h => hnot (.inr h), hwanted⟩

/-- The report of `Analyzer.run` is `Coherent` under every configuration. Afterwards `solutions`
fails exactly where the balance equations were found inconsistent. Besides the channels of the graph
and of the period actors, the graph has channels that deliver parameters only if the configuration
wanted them and neither the balance equations nor the safety check has found an error. -/
theorem run_coherent {s s' : AnalyzerState} {report : Report} (hs : s.graph.Reachable)
    (h : Analyzer.run s = .ok report s') :
    report.Coherent s.analyzer.config s'.graph ∧
      (s'.analyzer.solutions = .error .unsolved ↔ report.Has "SPDF001") ∧
      ∃ inserted wired, arrive s.graph s.analyzer.config .structural = some inserted ∧
        s'.graph.channels = inserted.graph.channels ++ wired ∧
        (wired ≠ [] → ¬ report.Has "SPDF001" ∧ ¬ report.Has "SPDF002" ∧
          s.analyzer.config.connectUsers = true) := by
  have hreachable := (keeps_run Graph.lasting_reachable).of_ok hs h
  have hwired := exists_wired_of_run hs h
  obtain ⟨final, hall, rfl, hgraph, hreport⟩ := run_eq_ok h
  obtain ⟨dangling, errors, verdicts, cycles, hconcluded⟩ := concluded_of_runAll hall
  have hconfig : final.config = s.analyzer.config := Pass.runAll_keeps_config hall
  have hcoherent := hconcluded.coherent (hgraph ▸ hreachable.wellFormed)
  rw [hconfig, ← hgraph] at hcoherent
  have hsolutions : s'.analyzer.solutions = final.report.solutions := by
    unfold solutions
    rw [hreport]
  exact ⟨hcoherent, hsolutions ▸ hcoherent.unsolved_iff, hwired⟩

/-- A producer that sets a parameter at every second firing, a consumer that takes `p` tokens and
sends tokens back, and an observer. One port of the producer is spare, and the rates of its others
have a parameter that nobody sets. -/
def troubled : Graph :=
  Graph.performAll (.empty none)
    [ .addActor "a" "A" 0 false, .addActor "b" "B" 0 false, .addActor "c" "C" 0 false,
      .addPort "A" "out" .output (some "1"), .addPort "B" "in" .input (some "p"),
      .addPort "B" "back" .output (some "p"), .addPort "A" "again" .input (some "1"),
      .addPort "A" "more" .output (some "q"), .addPort "C" "in" .input (some "q"),
      .addPort "A" "spare" .output none,
      .addChannel ("a", "out") ("b", "in") {}, .addChannel ("b", "back") ("a", "again") {},
      .addChannel ("a", "more") ("c", "in") {},
      .addModifier { type := "A", parameter := "p", kind := "int", period := "2" } ]

/-- The codes of the findings of an analysis that comes to an end. -/
def codes? (s : AnalyzerState) : Option (List String) :=
  match Analyzer.run s with
  | .ok report _ => some (report.diagnostics.map (·.code))
  | .error _ _ => none

theorem exists_of_codes? {s : AnalyzerState} {codes : List String} (h : codes? s = some codes) :
    ∃ report s', Analyzer.run s = .ok report s' ∧ report.diagnostics.map (·.code) = codes := by
  unfold codes? at h
  split at h
  · rename_i report s' hrun
    exact ⟨report, s', hrun, Option.some.inj h⟩
  · cases h

theorem run_coherent_troubled :
    troubled.Reachable ∧ ∃ report s',
      Analyzer.run ⟨.new { stopOnError := false }, troubled, []⟩ = .ok report s' ∧
      report.diagnostics.map (·.code) = ["STRUCT001", "SPDF004", "SPDF002", "SPDF003"] ∧
      report.Coherent { stopOnError := false } s'.graph ∧
      (s'.analyzer.solutions = .error .unsolved ↔ report.Has "SPDF001") ∧
      ∃ inserted, arrive troubled { stopOnError := false } .structural = some inserted ∧
        s'.graph.channels = inserted.graph.channels := by
  have hg : troubled.Reachable := (Graph.Reachable.empty none).performAll _
  obtain ⟨report, s', hrun, hcodes⟩ := exists_of_codes?
    (show codes? ⟨.new { stopOnError := false }, troubled, []⟩ =
      some ["STRUCT001", "SPDF004", "SPDF002", "SPDF003"] by decide +kernel)
  obtain ⟨hcoherent, hsolutions, inserted, wired, hinserted, hchannels, hwired⟩ :=
    run_coherent hg hrun
  have hmisuse : report.Has "SPDF002" := List.mem_map.mp (by rw [hcodes]; decide)
  obtain rfl : wired = [] := by
    by_contra hne
    exact (hwired hne).2.1 hmisuse
  exact ⟨hg, report, s', hrun, hcodes, hcoherent, hsolutions, inserted, hinserted,
    hchannels.trans (List.append_nil _)⟩

end Analyzer

end Dataflow
