import Dataflow.Proofs.Analysis.Stages
import Dataflow.Proofs.Liveness.Acyclic

namespace Dataflow

open Dataflow.Action

private theorem Run.hasErrors_eq_false_of_kept {run run' : Run}
    (h : run.diagnostics <+: run'.diagnostics)
    (hclean : run'.hasErrors = false) : run.hasErrors = false := by
  rw [hasErrors, List.any_eq_false] at hclean ⊢
  exact fun d hd => hclean d (h.subset hd)

namespace Pass

variable {run run' final : Run} {pass target : Pass} {passes : List Pass}

/-- What the search for a cycle does as it is wanted or not. -/
def lookForCycle (wanted : Bool) : Action Run Unit := do
  if wanted then
    match ← Run.onWorkspace Workspace.checkLiveness with
    | .success _ => return
    | .violated cycle => Run.convict "SPDF003" cycle.start.name (.cycle cycle)

private theorem liveness_run (run : Run) :
    liveness.run run = lookForCycle run.config.checkLiveness run :=
  rfl

/-- The cycle that is reported, if the search for one is wanted and finds one. -/
def cyclesFound (wanted : Bool) (g : Graph) : List DirectedCycle :=
  if wanted then (Liveness.check g).evidence?.toList else []

/-- The error that reports a cycle. -/
def cycleFinding (cycle : DirectedCycle) : Diagnostic :=
  .error "SPDF003" cycle.report (some cycle.start.name) (some (.cycle cycle))

/-- A run with the cycle that the search finds in its graph. -/
def searched (run : Run) : Run :=
  { run with
    violations := run.violations ++ (cyclesFound run.config.checkLiveness run.graph).map .cycle
    diagnostics :=
      run.diagnostics ++ (cyclesFound run.config.checkLiveness run.graph).map cycleFinding }

/-- The search for a cycle adds it to what was found, and leaves the rest alone. -/
theorem liveness_eq (run : Run) :
    ∃ journal, liveness.run run = .ok () { searched run with journal } := by
  rw [liveness_run]
  unfold lookForCycle searched cyclesFound
  cases run.config.checkLiveness with
  | false =>
    refine ⟨run.journal, ?_⟩
    simp only [Bool.false_eq_true, if_false, List.map_nil, List.append_nil]
    rfl
  | true =>
    have hcheck := Liveness.checkLiveness_eq run.toWorkspace
    cases hfound : Liveness.check run.graph with
    | success finished =>
      rw [hfound] at hcheck
      have hstep := Run.onWorkspace_eq_ok_iff.mpr ⟨_, hcheck, rfl⟩
      refine ⟨run.journal.note .debug s!"Graph is acyclic, {finished.length} actors checked", ?_⟩
      simp only [if_true, Verdict.evidence?, Option.toList_none, List.map_nil, List.append_nil]
      exact bind_eq_ok_iff.mpr ⟨_, _, hstep, rfl⟩
    | violated cycle =>
      rw [hfound] at hcheck
      have hstep := Run.onWorkspace_eq_ok_iff.mpr ⟨_, hcheck, rfl⟩
      exact ⟨_, bind_eq_ok_iff.mpr ⟨_, _, hstep, rfl⟩⟩

theorem liveness_eq_ok (h : liveness.run run = .ok () run') :
    ∃ journal, run' = { searched run with journal } := by
  obtain ⟨journal, heq⟩ := liveness_eq run
  rw [heq] at h
  cases h
  exact ⟨journal, rfl⟩

/-- No pass takes back what was found. -/
theorem keeps_diagnostics (h : pass.run run = .ok () run') :
    run.diagnostics <+: run'.diagnostics := by
  cases pass with
  | periodActors =>
    obtain ⟨w, -, rfl⟩ := periodActors_eq_ok h
    exact List.prefix_rfl
  | structural =>
    obtain ⟨findings, -, rfl⟩ := structural_eq_ok h
    exact List.prefix_append ..
  | rates =>
    obtain ⟨w, -, rfl⟩ := rates_eq_ok h
    exact List.prefix_rfl
  | sources =>
    obtain ⟨w, -, rfl⟩ := sources_eq_ok h
    exact List.prefix_append ..
  | balance =>
    obtain ⟨start, verdict, w, -, -, hresult⟩ := balance_eq_ok h
    obtain ⟨table, -, rfl⟩ | ⟨evidence, d, -, -, rfl⟩ := hresult
    · exact List.prefix_rfl
    · exact List.prefix_append ..
  | users =>
    obtain ⟨-, rfl⟩ | ⟨table, w, -, -, rfl⟩ := users_eq_ok h <;> exact List.prefix_rfl
  | safety =>
    obtain ⟨-, rfl⟩ | ⟨table, verdict, w, -, -, hresult⟩ := safety_eq_ok h
    · exact List.prefix_rfl
    · obtain ⟨-, rfl⟩ | ⟨evidence, d, -, -, rfl⟩ := hresult
      · exact List.prefix_rfl
      · exact List.prefix_append ..
  | wiring =>
    obtain ⟨w, rfl⟩ := wiring_eq_ok h
    exact List.prefix_rfl
  | liveness =>
    obtain ⟨journal, rfl⟩ := liveness_eq_ok h
    exact List.prefix_append ..

/-- No pass changes the configuration. -/
theorem keeps_config (h : pass.run run = .ok () run') : run'.config = run.config := by
  cases pass with
  | periodActors =>
    obtain ⟨w, -, rfl⟩ := periodActors_eq_ok h
    rfl
  | structural =>
    obtain ⟨findings, -, rfl⟩ := structural_eq_ok h
    rfl
  | rates =>
    obtain ⟨w, -, rfl⟩ := rates_eq_ok h
    rfl
  | sources =>
    obtain ⟨w, -, rfl⟩ := sources_eq_ok h
    rfl
  | balance =>
    obtain ⟨start, verdict, w, -, -, hresult⟩ := balance_eq_ok h
    obtain ⟨table, -, rfl⟩ | ⟨evidence, d, -, -, rfl⟩ := hresult <;> rfl
  | users =>
    obtain ⟨-, rfl⟩ | ⟨table, w, -, -, rfl⟩ := users_eq_ok h <;> rfl
  | safety =>
    obtain ⟨-, rfl⟩ | ⟨table, verdict, w, -, -, hresult⟩ := safety_eq_ok h
    · rfl
    · obtain ⟨-, rfl⟩ | ⟨evidence, d, -, -, rfl⟩ := hresult <;> rfl
  | wiring =>
    obtain ⟨w, rfl⟩ := wiring_eq_ok h
    rfl
  | liveness =>
    obtain ⟨journal, rfl⟩ := liveness_eq_ok h
    rfl

/-- After a pass the analysis stops at an error, or goes on. -/
theorem runAll_cons_eq_ok (h : runAll (pass :: passes) run = .ok () final) :
    ∃ next, pass.run (run.noted .debug s!"Running pass {pass.name}") = .ok () next ∧
      ((next.config.stopOnError && next.hasErrors) = true ∧
          (∃ level message, final = next.noted level message) ∨
        (next.config.stopOnError && next.hasErrors) = false ∧ runAll passes next = .ok () final) := by
  rw [runAll_cons] at h
  obtain ⟨_, next, hpass, -⟩ := bind_eq_ok_iff.mp h
  rw [resume_of_ok hpass] at h
  refine ⟨next, hpass, ?_⟩
  cases hstop : next.config.stopOnError && next.hasErrors with
  | true =>
    rw [hstop] at h
    cases h
    exact .inl ⟨rfl, _, _, rfl⟩
  | false =>
    rw [hstop] at h
    exact .inr ⟨rfl, h⟩

private theorem runAll_keeps_diagnostics (h : runAll passes run = .ok () final) :
    run.diagnostics <+: final.diagnostics := by
  induction passes generalizing run with
  | nil =>
    cases h
    exact List.prefix_rfl
  | cons pass passes ih =>
    obtain ⟨next, hpass, hend⟩ := runAll_cons_eq_ok h
    have hnext := keeps_diagnostics hpass
    obtain ⟨-, level, message, rfl⟩ | ⟨-, hrest⟩ := hend
    · exact hnext
    · exact hnext.trans (ih hrest)

theorem runAll_keeps_config (h : runAll passes run = .ok () final) : final.config = run.config := by
  induction passes generalizing run with
  | nil =>
    cases h
    rfl
  | cons pass passes ih =>
    obtain ⟨next, hpass, hend⟩ := runAll_cons_eq_ok h
    have hnext := keeps_config hpass
    obtain ⟨-, level, message, rfl⟩ | ⟨-, hrest⟩ := hend
    · exact hnext
    · exact (ih hrest).trans hnext

/-- Without errors at the end, the analysis arrives at every pass, and there were none by then. -/
theorem exists_arrive (h : runAll passes run = .ok () final) (hclean : final.hasErrors = false)
    (htarget : target ∈ passes) :
    ∃ reached, arrive target passes run = some reached ∧ reached.hasErrors = false := by
  induction passes generalizing run with
  | nil => cases htarget
  | cons pass passes ih =>
    have hstart := Run.hasErrors_eq_false_of_kept (runAll_keeps_diagnostics h) hclean
    obtain ⟨next, hpass, hend⟩ := runAll_cons_eq_ok h
    by_cases heq : pass = target
    · refine ⟨run.noted .debug s!"Running pass {pass.name}", ?_, hstart⟩
      simp [arrive, heq]
    · obtain ⟨hstop, level, message, rfl⟩ | ⟨hgo, hrest⟩ := hend
      · have herrors : (next.noted level message).hasErrors = true :=
          (Bool.and_eq_true_iff.mp hstop).2
        rw [hclean] at herrors
        cases herrors
      · obtain ⟨reached, hreached, hclean'⟩ :=
          ih hrest ((List.mem_cons.mp htarget).resolve_left (Ne.symm heq))
        exact ⟨reached, (arrive_cons_of_ok heq hpass hgo).trans hreached, hclean'⟩

theorem config_of_arrive {reached : Run} (h : arrive target passes run = some reached) :
    reached.config = run.config :=
  arrive_invariant (I := fun r => r.config = run.config) (fun _ _ _ hr => hr)
    (fun _ _ _ _ hr hpass => (keeps_config hpass).trans hr) rfl h

/-- An analysis that is to stop at an error arrives at no pass with one. -/
theorem hasErrors_of_arrive {reached : Run} (h : arrive target passes run = some reached)
    (hrun : run.hasErrors = false) (hstop : run.config.stopOnError = true) :
    reached.hasErrors = false := by
  induction passes generalizing run with
  | nil => simp [arrive] at h
  | cons pass passes ih =>
    by_cases heq : pass = target
    · subst heq
      rw [eq_of_arrive_self h]
      exact hrun
    · obtain ⟨next, hpass, hnext⟩ := exists_of_arrive_cons heq h
      have hconfig : next.config.stopOnError = true := by rw [keeps_config hpass]; exact hstop
      refine ih hnext ?_ hconfig
      by_contra herrors
      rw [Bool.not_eq_false] at herrors
      rw [arrive] at h
      simp [if_neg heq, hpass, hconfig, herrors] at h

/-- What passes come to, one of them comes to that the analysis has arrived at: it has errors at which
the analysis stops, or it is the last one. -/
theorem exists_last {first : Pass} (hnodup : (first :: passes).Nodup)
    (h : runAll (first :: passes) run = .ok () final) :
    ∃ target reached next, arrive target (first :: passes) run = some reached ∧
      target.run reached = .ok () next ∧
      ((next.config.stopOnError && next.hasErrors) = true ∧
          (∃ level message, final = next.noted level message) ∨
        (next.config.stopOnError && next.hasErrors) = false ∧
          (first :: passes).getLast? = some target ∧ final = next) := by
  induction passes generalizing first run with
  | nil =>
    obtain ⟨next, hpass, hend⟩ := runAll_cons_eq_ok h
    refine ⟨first, _, next, arrive_self, hpass, hend.imp_right fun ⟨hgo, hnil⟩ => ?_⟩
    cases hnil
    exact ⟨hgo, rfl, rfl⟩
  | cons second passes ih =>
    obtain ⟨hnew, hrest⟩ := List.nodup_cons.mp hnodup
    obtain ⟨next, hpass, hend⟩ := runAll_cons_eq_ok h
    obtain hstop | ⟨hgo, hlater⟩ := hend
    · exact ⟨first, _, next, by simp [arrive], hpass, .inl hstop⟩
    · obtain ⟨target, reached, last, harrive, hrun, hlast⟩ := ih hrest hlater
      have hne : first ≠ target := fun heq => hnew (heq ▸ mem_of_arrive harrive)
      refine ⟨target, reached, last, (arrive_cons_of_ok hne hpass hgo).trans harrive, hrun, ?_⟩
      rw [List.getLast?_cons_cons]
      exact hlast

end Pass

namespace Analyzer

variable {s s' : AnalyzerState} {report : Report}

/-- The outcome is noted in the journal and nowhere else. -/
theorem noteOutcome_eq_ok (h : noteOutcome report s = .ok () s') :
    ∃ record, s' = { s with journal := s.journal ++ [record] } := by
  unfold noteOutcome at h
  cases hsuccess : report.success with
  | false =>
    rw [hsuccess] at h
    cases h
    exact ⟨_, rfl⟩
  | true =>
    rw [hsuccess] at h
    cases htable : report.table with
    | none =>
      rw [htable] at h
      cases h
      exact ⟨_, rfl⟩
    | some table =>
      rw [htable] at h
      obtain ⟨_, _, hget, h⟩ := bind_eq_ok_iff.mp h
      cases hget
      obtain ⟨text, _, htext, h⟩ := bind_eq_ok_iff.mp h
      obtain ⟨-, rfl⟩ := lift_eq_ok_iff.mp htext
      cases h
      exact ⟨_, rfl⟩

/-- What an analysis reports is what the passes have found. -/
theorem conduct_eq_ok {g : Graph} {config : Config} {final : Run}
    (h : conduct (Run.start g config) = .ok report final) :
    Pass.runAll Pass.all (opening g config) = .ok () final ∧ report = final.report := by
  rw [conduct_eq] at h
  obtain ⟨_, last, hall, h⟩ := bind_eq_ok_iff.mp h
  cases h
  exact ⟨hall, rfl⟩

theorem run_of_started (h : s.analyzer.started = true) :
    Analyzer.run s = .error .alreadyAnalyzed s := by
  rw [Analyzer.run, get_bind_apply, h]
  rfl

/-- The state of an analyzer that has gone through its passes. -/
def passed (s : AnalyzerState) (report : Option Report) (run : Run) : AnalyzerState where
  analyzer := { s.analyzer with started := true, report }
  graph := run.graph
  journal := s.journal ++ run.journal.stamp s.graph.name

/-- An analyzer that did not run before ends as its passes do, and notes the outcome. -/
theorem run_of_new (h : s.analyzer.started = false) :
    Analyzer.run s = match conduct (Run.start s.graph s.analyzer.config) with
      | .ok report run =>
        (noteOutcome report >>= fun _ => pure report) (passed s (some report) run)
      | .error e run => .error e (passed s s.analyzer.report run) := by
  rw [Analyzer.run, get_bind_apply, h]
  cases hconduct : conduct (Run.start s.graph s.analyzer.config) with
  | ok report run =>
    let started : AnalyzerState := { s with analyzer := { s.analyzer with started := true } }
    let before : AnalyzerState := passed s s.analyzer.report run
    have hwithin : (conduct.within (fun s => .start s.graph s.analyzer.config) fun s run =>
        { s with graph := run.graph, journal := s.journal ++ run.journal.stamp s.graph.name } :
          Action AnalyzerState Report) started = .ok report before :=
      within_eq_ok_iff.mpr ⟨run, hconduct, rfl⟩
    exact bind_apply_congr hwithin
  | error e run =>
    exact bind_eq_error_iff.mpr <| .inr ⟨_, _, rfl,
      bind_eq_error_iff.mpr <| .inl <| within_eq_error_iff.mpr ⟨_, hconduct, rfl⟩⟩

/-- What an analyzer reports is what the passes have found, and its graph is the one they leave. It
keeps the report. -/
theorem run_eq_ok (h : Analyzer.run s = .ok report s') :
    ∃ final, Pass.runAll Pass.all (opening s.graph s.analyzer.config) = .ok () final ∧
      report = final.report ∧ s'.graph = final.graph ∧ s'.analyzer.report = some report := by
  cases hstarted : s.analyzer.started with
  | true =>
    rw [run_of_started hstarted] at h
    cases h
  | false =>
    rw [run_of_new hstarted] at h
    split at h
    · rename_i hconduct
      obtain ⟨hall, hreport⟩ := conduct_eq_ok hconduct
      obtain ⟨_, _, hnote, h⟩ := bind_eq_ok_iff.mp h
      cases h
      obtain ⟨record, rfl⟩ := noteOutcome_eq_ok hnote
      exact ⟨_, hall, hreport, rfl, rfl⟩
    · cases h

end Analyzer

end Dataflow
