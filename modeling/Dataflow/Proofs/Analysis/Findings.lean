import Dataflow.Proofs.Analysis.Graphs
import Dataflow.Proofs.Analysis.Wiring

namespace Dataflow

open Dataflow.Action

/-- Warnings are no errors. -/
theorem Diagnostic.any_isError_of_warns {findings : List Diagnostic} {code : String}
    (h : ∀ d ∈ findings, d.Warns code) : findings.any (·.isError) = false := by
  rw [List.any_eq_false]
  exact fun d hd => by simp [(h d hd).isError]

namespace Pass

theorem environmentFindings_warn (environment : List String) :
    ∀ d ∈ environment.map environmentFinding, d.Warns "SPDF004" := by
  intro d hd
  obtain ⟨parameter, -, rfl⟩ := List.mem_map.mp hd
  exact ⟨rfl, rfl⟩

variable {pass : Pass} {run run' : Run}

/-- Which parameters belong to the environment is settled once their sources are known. -/
theorem environment_eq (hpass : pass ∉ [.periodActors, .sources])
    (h : pass.run run = .ok () run') : run'.protocol.environment = run.protocol.environment := by
  by_cases hwire : pass = .wiring
  · subst hwire
    exact (keeps_wiring (P := fun _ p => p.environment = run.protocol.environment)
      (fun _ => ⟨fun _ _ _ _ _ => id, fun _ _ _ _ _ => id⟩) fun _ _ => id).of_ok rfl h
  · refine (keeps_run_of_uses (P := fun _ p => p.environment = run.protocol.environment) ?_ ?_).of_ok
      rfl h
    · exact fun _ _ _ => id
    · simpa [hwire] using hpass

end Pass

namespace Run

/-- How the balance equations and the safety check have come out for the table and the safety of a
run: with an error that reports a violation, or without one. -/
inductive Judged (table : Option Repetitions) (safe : Bool) :
    List Diagnostic → List Violation → Prop
  | clear (htable : table.isSome = true) : Judged table safe [] []
  | inconsistent {d : Diagnostic} {evidence : Inconsistency} (htable : table = none)
    (hsafe : safe = false) (hd : d.Reports "SPDF001" (.inconsistency evidence)) :
    Judged table safe [d] [.inconsistency evidence]
  | misused {d : Diagnostic} {evidence : Misuse} (htable : table.isSome = true)
    (hsafe : safe = false) (hd : d.Reports "SPDF002" (.misuse evidence)) :
    Judged table safe [d] [.misuse evidence]

/-- The findings of a run before the balance equations are solved. -/
structure Warned (dangling : List Diagnostic) (run : Run) : Prop where
  warns : ∀ d ∈ dangling, d.Warns "STRUCT001"
  diagnostics_eq :
    run.diagnostics = dangling ++ run.protocol.environment.map Pass.environmentFinding
  violations_eq : run.violations = []
  table_eq : run.table = none
  safe_eq : run.safe = false

/-- The findings of a run after the balance equations were solved. -/
structure Accounted (dangling errors : List Diagnostic) (run : Run) : Prop where
  warns : ∀ d ∈ dangling, d.Warns "STRUCT001"
  diagnostics_eq :
    run.diagnostics = dangling ++ run.protocol.environment.map Pass.environmentFinding ++ errors
  judged : Judged run.table run.safe errors run.violations

variable {dangling errors : List Diagnostic} {run run' : Run}

theorem Warned.balance (h : run.Warned dangling) (hrun : Pass.balance.run run = .ok () run') :
    ∃ errors, run'.Accounted dangling errors ∧ (errors = [] ∨ run'.table = none) := by
  have henvironment := Pass.environment_eq (by decide) hrun
  obtain ⟨start, verdict, w, -, -, hresult⟩ := Pass.balance_eq_ok hrun
  obtain ⟨table, -, rfl⟩ | ⟨evidence, d, -, hd, rfl⟩ := hresult
  · refine ⟨[], ⟨h.warns, ?_, ?_⟩, .inl rfl⟩
    · rw [henvironment, List.append_nil]
      exact h.diagnostics_eq
    · show Judged (some table) run.safe [] run.violations
      rw [h.violations_eq]
      exact .clear rfl
  · refine ⟨[d], ⟨h.warns, ?_, ?_⟩, .inr h.table_eq⟩
    · rw [henvironment, ← h.diagnostics_eq]
    · show Judged run.table run.safe [d] (run.violations ++ _)
      rw [h.violations_eq]
      exact .inconsistent h.table_eq h.safe_eq hd

private theorem Accounted.of_eq (h : run.Accounted dangling errors)
    (henvironment : run'.protocol.environment = run.protocol.environment)
    (hdiagnostics : run'.diagnostics = run.diagnostics)
    (hviolations : run'.violations = run.violations) (htable : run'.table = run.table)
    (hsafe : run'.safe = run.safe) : run'.Accounted dangling errors where
  warns := h.warns
  diagnostics_eq := by rw [hdiagnostics, henvironment, h.diagnostics_eq]
  judged := by
    rw [htable, hsafe, hviolations]
    exact h.judged

private theorem Accounted.users (h : run.Accounted dangling errors)
    (hrun : Pass.users.run run = .ok () run') :
    run'.Accounted dangling errors ∧ run'.table = run.table := by
  have henvironment := Pass.environment_eq (by decide) hrun
  obtain ⟨-, rfl⟩ | ⟨table, w, -, -, rfl⟩ := Pass.users_eq_ok hrun
  · exact ⟨h, rfl⟩
  · exact ⟨h.of_eq henvironment rfl rfl rfl rfl, rfl⟩

/-- The safety check adds an error only to findings without one. -/
theorem Accounted.safety (h : run.Accounted dangling errors)
    (hclear : errors = [] ∨ run.table = none) (hrun : Pass.safety.run run = .ok () run') :
    ∃ errors', run'.Accounted dangling errors' := by
  have henvironment := Pass.environment_eq (by decide) hrun
  obtain ⟨-, rfl⟩ | ⟨table, verdict, w, htable, -, hresult⟩ := Pass.safety_eq_ok hrun
  · exact ⟨errors, h⟩
  obtain rfl : errors = [] := hclear.resolve_right (by simp [htable])
  have hviolations : run.violations = [] := by
    generalize hv : run.violations = violations
    have hjudged := h.judged
    rw [hv] at hjudged
    cases hjudged
    rfl
  have hdiagnostics := h.diagnostics_eq
  rw [List.append_nil] at hdiagnostics
  obtain ⟨-, rfl⟩ | ⟨evidence, d, -, hd, rfl⟩ := hresult
  · refine ⟨[], h.warns, ?_, ?_⟩
    · rw [henvironment, List.append_nil]
      exact hdiagnostics
    · show Judged run.table true [] run.violations
      rw [hviolations]
      exact .clear (by rw [htable]; rfl)
  · refine ⟨[d], h.warns, ?_, ?_⟩
    · rw [henvironment, ← hdiagnostics]
    · show Judged run.table false [d] (run.violations ++ _)
      rw [hviolations]
      exact .misused (by rw [htable]; rfl) rfl hd

private theorem Accounted.wiring (h : run.Accounted dangling errors)
    (hrun : Pass.wiring.run run = .ok () run') : run'.Accounted dangling errors := by
  have henvironment := Pass.environment_eq (by decide) hrun
  obtain ⟨w, rfl⟩ := Pass.wiring_eq_ok hrun
  exact h.of_eq henvironment rfl rfl rfl rfl

private theorem Judged.any_isError {table : Option Repetitions} {safe : Bool}
    {verdicts : List Violation}
    (h : Judged table safe errors verdicts) : errors.any (·.isError) = !errors.isEmpty := by
  cases h with
  | clear htable => rfl
  | inconsistent htable hsafe hd => simp [hd.isError]
  | misused htable hsafe hd => simp [hd.isError]

/-- Only what the balance equations and the safety check have found are errors. -/
theorem Accounted.hasErrors_eq (h : run.Accounted dangling errors) :
    run.hasErrors = !errors.isEmpty := by
  rw [hasErrors, h.diagnostics_eq, List.any_append, List.any_append,
    Diagnostic.any_isError_of_warns h.warns,
    Diagnostic.any_isError_of_warns (Pass.environmentFindings_warn _), h.judged.any_isError]
  rfl

/-- What has been found when the analysis is over. It looked for a cycle unless it had stopped at an
error. -/
structure Concluded (dangling errors : List Diagnostic) (verdicts : List Violation)
    (cycles : List DirectedCycle) (final : Run) : Prop where
  warns : ∀ d ∈ dangling, d.Warns "STRUCT001"
  diagnostics_eq : final.diagnostics =
    dangling ++ final.protocol.environment.map Pass.environmentFinding ++ errors ++
      cycles.map Pass.cycleFinding
  violations_eq : final.violations = verdicts ++ cycles.map .cycle
  judged : Judged final.table final.safe errors verdicts
  cycles_eq : cycles = if final.config.stopOnError && !errors.isEmpty then []
    else Pass.cyclesFound final.config.checkLiveness final.graph

/-- An analysis that stops at an error has found nothing else. -/
theorem Accounted.stopped (h : run.Accounted dangling errors)
    (hstop : (run.config.stopOnError && run.hasErrors) = true) {journal : Journal} :
    { run with journal }.Concluded dangling errors run.violations [] where
  warns := h.warns
  diagnostics_eq := h.diagnostics_eq.trans (List.append_nil _).symm
  violations_eq := (List.append_nil _).symm
  judged := h.judged
  cycles_eq := by
    rw [h.hasErrors_eq] at hstop
    exact (if_pos hstop).symm

/-- An analysis that comes to the search for a cycle adds the cycle that it finds. -/
theorem Accounted.searched (h : run.Accounted dangling errors)
    (hclean : run.config.stopOnError = true → run.hasErrors = false) {journal : Journal} :
    { Pass.searched run with journal }.Concluded dangling errors run.violations
      (Pass.cyclesFound run.config.checkLiveness run.graph) where
  warns := h.warns
  diagnostics_eq := congrArg (· ++ _) h.diagnostics_eq
  violations_eq := rfl
  judged := h.judged
  cycles_eq := by
    rw [if_neg]
    · rfl
    rw [Bool.and_eq_true_iff]
    rintro ⟨hstop, herrors⟩
    rw [← h.hasErrors_eq, hclean hstop] at herrors
    cases herrors

end Run

namespace Analyzer

variable {g : Graph} {config : Config} {run final : Run}

theorem warned_of_arrive (h : arrive g config .balance = some run) :
    ∃ dangling, run.Warned dangling := by
  obtain ⟨atSources, afterSources, hsources, hidentify, rfl⟩ := Pass.arrive_step
    [.periodActors, .structural, .rates] (by decide) (by decide) (by decide) h
  obtain ⟨atRates, afterRates, hrates, hparse, rfl⟩ := Pass.arrive_step
    [.periodActors, .structural] (by decide) (by decide) (by decide) hsources
  obtain ⟨atStructural, afterStructural, hstructural, hreport, rfl⟩ := Pass.arrive_step
    [.periodActors] (by decide) (by decide) (by decide) hrates
  obtain ⟨atStart, afterStart, hstart, hinsert, rfl⟩ := Pass.arrive_step
    [] (by decide) (by decide) (by decide) hstructural
  obtain ⟨_, -, rfl⟩ := Pass.periodActors_eq_ok hinsert
  obtain ⟨dangling, hwarns, rfl⟩ := Pass.structural_eq_ok hreport
  obtain ⟨_, -, rfl⟩ := Pass.rates_eq_ok hparse
  obtain ⟨_, -, rfl⟩ := Pass.sources_eq_ok hidentify
  rw [Pass.eq_of_arrive_self hstart]
  exact ⟨dangling, hwarns, rfl, rfl, rfl, rfl⟩

private theorem accounted_of_arrive_users (h : arrive g config .users = some run) :
    ∃ dangling errors, run.Accounted dangling errors ∧ (errors = [] ∨ run.table = none) := by
  obtain ⟨previous, next, hprevious, hrun, rfl⟩ := Pass.arrive_step
    [.periodActors, .structural, .rates, .sources] (by decide) (by decide) (by decide) h
  obtain ⟨dangling, hwarned⟩ := warned_of_arrive hprevious
  obtain ⟨errors, haccounted, hclear⟩ := hwarned.balance hrun
  exact ⟨dangling, errors, { haccounted with }, hclear⟩

theorem accounted_of_arrive_safety (h : arrive g config .safety = some run) :
    ∃ dangling errors, run.Accounted dangling errors ∧ (errors = [] ∨ run.table = none) := by
  obtain ⟨previous, next, hprevious, hrun, rfl⟩ := Pass.arrive_step
    [.periodActors, .structural, .rates, .sources, .balance] (by decide) (by decide) (by decide) h
  obtain ⟨dangling, errors, haccounted, hclear⟩ := accounted_of_arrive_users hprevious
  obtain ⟨hnext, htable⟩ := haccounted.users hrun
  exact ⟨dangling, errors, { hnext with }, hclear.imp_right htable.trans⟩

private theorem accounted_of_arrive_wiring (h : arrive g config .wiring = some run) :
    ∃ dangling errors, run.Accounted dangling errors := by
  obtain ⟨previous, next, hprevious, hrun, rfl⟩ := Pass.arrive_step
    [.periodActors, .structural, .rates, .sources, .balance, .users]
    (by decide) (by decide) (by decide) h
  obtain ⟨dangling, errors, haccounted, hclear⟩ := accounted_of_arrive_safety hprevious
  obtain ⟨errors', hnext⟩ := haccounted.safety hclear hrun
  exact ⟨dangling, errors', { hnext with }⟩

private theorem accounted_of_arrive_liveness (h : arrive g config .liveness = some run) :
    ∃ dangling errors, run.Accounted dangling errors := by
  obtain ⟨previous, next, hprevious, hrun, rfl⟩ := Pass.arrive_step
    [.periodActors, .structural, .rates, .sources, .balance, .users, .safety]
    (by decide) (by decide) (by decide) h
  obtain ⟨dangling, errors, haccounted⟩ := accounted_of_arrive_wiring hprevious
  exact ⟨dangling, errors, { haccounted.wiring hrun with }⟩

/-- Errors come from the balance equations, from the safety check, or from the search for a cycle. -/
theorem hasErrors_eq {pass : Pass} {next : Run} (hpass : pass ∉ [.balance, .safety, .liveness])
    (h : pass.run run = .ok () next) : next.hasErrors = run.hasErrors := by
  have hwarnings {findings : List Diagnostic} {code : String}
      (hwarns : ∀ d ∈ findings, d.Warns code) :
      (run.diagnostics ++ findings).any (·.isError) = run.hasErrors := by
    rw [List.any_append, Diagnostic.any_isError_of_warns hwarns, Bool.or_false]
    rfl
  cases pass with
  | periodActors =>
    obtain ⟨w, -, rfl⟩ := Pass.periodActors_eq_ok h
    rfl
  | structural =>
    obtain ⟨findings, hwarns, rfl⟩ := Pass.structural_eq_ok h
    exact hwarnings hwarns
  | rates =>
    obtain ⟨w, -, rfl⟩ := Pass.rates_eq_ok h
    rfl
  | sources =>
    obtain ⟨w, -, rfl⟩ := Pass.sources_eq_ok h
    exact hwarnings (Pass.environmentFindings_warn _)
  | balance => exact absurd (by decide) hpass
  | users => obtain ⟨-, rfl⟩ | ⟨table, w, -, -, rfl⟩ := Pass.users_eq_ok h <;> rfl
  | safety => exact absurd (by decide) hpass
  | wiring =>
    obtain ⟨w, rfl⟩ := Pass.wiring_eq_ok h
    rfl
  | liveness => exact absurd (by decide) hpass

/-- An analysis that comes to an end does so at an error of the balance equations or of the safety
check, or after the search for a cycle. -/
theorem exists_last_pass (h : Pass.runAll Pass.all (opening g config) = .ok () final) :
    ∃ target reached next journal, arrive g config target = some reached ∧
      target.run reached = .ok () next ∧ final = { next with journal } ∧
      (reached.config.stopOnError = true → reached.hasErrors = false) ∧
      (target ∈ [.balance, .safety] ∧ (next.config.stopOnError && next.hasErrors) = true ∨
        target = .liveness) := by
  obtain ⟨target, reached, next, harrive, hrun, hend⟩ := Pass.exists_last (by decide) h
  have hclean (hstop : reached.config.stopOnError = true) : reached.hasErrors = false :=
    Pass.hasErrors_of_arrive harrive rfl (Pass.config_of_arrive harrive ▸ hstop)
  obtain ⟨hstop, level, message, rfl⟩ | ⟨-, hlast, rfl⟩ := hend
  · refine ⟨target, reached, next, _, harrive, hrun, rfl, hclean, ?_⟩
    by_cases hsilent : target ∉ [.balance, .safety, .liveness]
    · -- The other passes add no errors at which the analysis could stop.
      rw [Bool.and_eq_true_iff, Pass.keeps_config hrun, hasErrors_eq hsilent hrun] at hstop
      rw [hclean hstop.1] at hstop
      cases hstop.2
    · cases target with
      | balance => exact .inl ⟨by decide, hstop⟩
      | safety => exact .inl ⟨by decide, hstop⟩
      | liveness => exact .inr rfl
      | _ => exact absurd (by decide) hsilent
  · exact ⟨target, reached, final, _, harrive, hrun, rfl, hclean,
      .inr (Option.some.inj hlast).symm⟩

/-- What an analysis has found when it is over, however far it got. -/
theorem concluded_of_runAll (h : Pass.runAll Pass.all (opening g config) = .ok () final) :
    ∃ dangling errors verdicts cycles, final.Concluded dangling errors verdicts cycles := by
  obtain ⟨target, reached, next, journal, harrive, hrun, rfl, hclean, hlast⟩ := exists_last_pass h
  obtain ⟨htarget, hstop⟩ | rfl := hlast
  · simp only [List.mem_cons, List.not_mem_nil, or_false] at htarget
    obtain rfl | rfl := htarget
    · obtain ⟨dangling, hwarned⟩ := warned_of_arrive harrive
      obtain ⟨errors, haccounted, -⟩ := hwarned.balance hrun
      exact ⟨dangling, errors, _, _, haccounted.stopped hstop⟩
    · obtain ⟨dangling, errors, haccounted, hclear⟩ := accounted_of_arrive_safety harrive
      obtain ⟨errors', haccounted'⟩ := haccounted.safety hclear hrun
      exact ⟨dangling, errors', _, _, haccounted'.stopped hstop⟩
  · obtain ⟨dangling, errors, haccounted⟩ := accounted_of_arrive_liveness harrive
    obtain ⟨_, rfl⟩ := Pass.liveness_eq_ok hrun
    exact ⟨dangling, errors, _, _, haccounted.searched hclean⟩

/-- Until the parameters are delivered, the graph and the feeders of the period actors are those that
their insertion has left. -/
theorem inserted_of_arrive {target : Pass} (htarget : target ∉ [.periodActors, .liveness])
    (h : arrive g config target = some run) :
    ∃ inserted, arrive g config .structural = some inserted ∧ run.graph = inserted.graph ∧
      run.protocol.feeders = inserted.protocol.feeders := by
  have hne : Pass.periodActors ≠ target := by
    rintro rfl
    exact htarget (by decide)
  obtain ⟨next, hinsert, hrest⟩ := Pass.exists_of_arrive_cons hne h
  have hgo : (next.config.stopOnError && next.hasErrors) = false := by
    obtain ⟨w, -, rfl⟩ := Pass.periodActors_eq_ok hinsert
    exact Bool.and_false _
  refine ⟨_, (Pass.arrive_cons_of_ok (by decide) hinsert hgo).trans Pass.arrive_self, ?_⟩
  have hsteady := Protocol.steady_feeders fun h feeders =>
    h = next.graph ∧ feeders = next.protocol.feeders
  have hbefore : ∀ pass ∈ Pass.all.tail.takeWhile (· ≠ target),
      pass ∉ [Pass.periodActors, .wiring] := by
    cases target <;> first | decide | exact absurd (by decide) htarget
  exact Pass.arrive_invariant
    (I := fun r => r.graph = next.graph ∧ r.protocol.feeders = next.protocol.feeders)
    (fun _ _ _ hr => hr)
    (fun pass hpass _ _ hr => (Pass.keeps_run_of_steady hsteady (hbefore pass hpass)).of_ok hr)
    ⟨rfl, rfl⟩ hrest

end Analyzer

end Dataflow
