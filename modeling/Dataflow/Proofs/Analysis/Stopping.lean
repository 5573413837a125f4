import Dataflow.Proofs.Analysis.Coherence
import Dataflow.Proofs.Analysis.Copy

namespace Dataflow

open Dataflow.Action

/-- The first of two analyses stops at an error, the second one goes on. -/
def Run.Hasty (stop stop' : Bool) : Prop :=
  stop = true ∧ stop' = false

namespace Pass

/-- A pass that changes nothing about a run but the journal, whatever is written there. -/
def Skips (pass : Pass) (run : Run) : Prop :=
  ∀ journal, ∃ journal', pass.run { run with journal } = .ok () { run with journal := journal' }

variable {run run' : Run} {idle later passes : List Pass}

private theorem users_skips (h : run.table = none) : users.Skips run := by
  intro journal
  refine ⟨journal, ?_⟩
  show (get >>= fun r : Run => _ : Action Run Unit) { run with journal } = _
  rw [get_bind_apply]
  simp only [h]
  rfl

private theorem safety_skips (h : run.table = none) : safety.Skips run := by
  intro journal
  refine ⟨journal, ?_⟩
  show (get >>= fun r : Run => _ : Action Run Unit) { run with journal } = _
  rw [get_bind_apply]
  simp only [h]
  rfl

private theorem wiring_skips (h : run.safe = false) : wiring.Skips run := by
  intro journal
  rw [wiring_run]
  obtain ⟨-, hskip⟩ | ⟨table, -, hsafe, -⟩ :=
    wireIf_cases run.config.connectUsers run.safe run.table { run with journal }
  · exact hskip
  · rw [h] at hsafe
    cases hsafe

/-- Passes that skip a run are passed over. -/
theorem runAll_of_skips (later : List Pass) (hgo : run.config.stopOnError = false)
    (hskips : ∀ pass ∈ idle, pass.Skips run) :
    ∃ journal, runAll (idle ++ later) run = runAll later { run with journal } := by
  induction idle generalizing run with
  | nil => exact ⟨run.journal, rfl⟩
  | cons pass idle ih =>
    obtain ⟨hfirst, hrest⟩ := List.forall_mem_cons.mp hskips
    obtain ⟨journal, hskip⟩ := hfirst (run.noted .debug s!"Running pass {pass.name}").journal
    have hpass : pass.run (run.noted .debug s!"Running pass {pass.name}") =
      .ok () { run with journal } := hskip
    have hgo' : { run with journal }.config.stopOnError = false := hgo
    obtain ⟨journal', hidle⟩ := ih hgo' hrest
    refine ⟨journal', ?_⟩
    rw [List.cons_append, runAll_cons, resume_of_ok hpass]
    simp only [hgo, Bool.false_and, Bool.false_eq_true, if_false]
    exact hidle

/-- After passes that skip a run, the search for a cycle adds the one that it finds. -/
theorem runAll_skips_liveness (hgo : run.config.stopOnError = false)
    (hskips : ∀ pass ∈ idle, pass.Skips run) :
    ∃ journal, runAll (idle ++ [liveness]) run = .ok () { searched run with journal } := by
  obtain ⟨journal, hidle⟩ := runAll_of_skips [liveness] hgo hskips
  obtain ⟨journal', hsearch⟩ := liveness_eq
    ({ run with journal }.noted .debug s!"Running pass {liveness.name}")
  refine ⟨journal', ?_⟩
  rw [hidle, runAll_cons, resume_of_ok hsearch]
  simp only [searched, Run.noted, hgo, Bool.false_and, Bool.false_eq_true, if_false]
  rfl

/-- Two analyses of which only the first one stops at an error do the same, unless a pass finds an
error. There the first one stops, and the second one goes on. -/
theorem runAll_twin (hnodup : passes.Nodup) (h : Run.Twin Run.Hasty run run')
    (hclean : run.hasErrors = false) :
    EndsAlike (Run.Twin Run.Hasty) (runAll passes run) (runAll passes run') ∨
      ∃ pass later reached next next', arrive pass passes run = some reached ∧
        pass :: later <:+ passes ∧ pass.run reached = .ok () next ∧ next.hasErrors = true ∧
        Run.Twin Run.Hasty next next' ∧
        (∃ level message, runAll passes run = .ok () (next.noted level message)) ∧
        runAll passes run' = runAll later next' := by
  induction passes generalizing run run' with
  | nil => exact .inl (matches_pure _ _ _ h)
  | cons pass passes ih =>
    obtain ⟨hnew, hrest⟩ := List.nodup_cons.mp hnodup
    have hnoted : Run.Twin Run.Hasty (run.noted .debug s!"Running pass {pass.name}")
        (run'.noted .debug s!"Running pass {pass.name}") :=
      (Run.matches_note .debug s!"Running pass {pass.name}").after h
    have hpass := matches_run pass _ _ hnoted
    rw [runAll_cons, runAll_cons]
    generalize hrun : pass.run (run.noted .debug s!"Running pass {pass.name}") = ending at hpass
    generalize hrun' : pass.run (run'.noted .debug s!"Running pass {pass.name}") = ending' at hpass
    cases hpass with
    | error e hnext =>
      rw [resume_of_error hrun, resume_of_error hrun']
      exact .inl (.error e hnext)
    | @ok _ next next' hnext =>
      obtain ⟨hstop, hgo⟩ := hnext.stops_of
      rw [resume_of_ok hrun, resume_of_ok hrun', hstop, hgo]
      cases herrors : next.hasErrors with
      | true =>
        exact .inr ⟨pass, passes, _, next, next', arrive_self, List.suffix_rfl, hrun, herrors, hnext,
          ⟨_, _, rfl⟩, rfl⟩
      | false =>
        refine (ih hrest hnext herrors).imp_right ?_
        rintro ⟨target, later, reached, last, last', harrive, hsuffix, hlast⟩
        have hne : pass ≠ target := fun heq => hnew (heq ▸ mem_of_arrive harrive)
        have hon : (next.config.stopOnError && next.hasErrors) = false := by
          rw [herrors, Bool.and_false]
        exact ⟨target, later, reached, last, last', (arrive_cons_of_ok hne hrun hon).trans harrive,
          hsuffix.trans (List.suffix_cons _ _), hlast⟩

end Pass

/-- A report with what another one has, and perhaps a cycle besides. -/
structure Report.Continues (report longer : Report) : Prop where
  success_eq : longer.success = report.success
  table_eq : longer.table = report.table
  protocol_eq : longer.protocol = report.protocol
  rates_eq : longer.rates = report.rates
  diagnostics_eq : ∃ later, longer.diagnostics = report.diagnostics ++ later ∧
    later.length ≤ 1 ∧ ∀ d ∈ later, d.code = "SPDF003"
  violations_eq : ∃ later, longer.violations = report.violations ++ later ∧ later.length ≤ 1

private theorem Report.continues_refl (report : Report) : report.Continues report where
  success_eq := rfl
  table_eq := rfl
  protocol_eq := rfl
  rates_eq := rfl
  diagnostics_eq := ⟨[], (List.append_nil _).symm, Nat.zero_le 1, by simp⟩
  violations_eq := ⟨[], (List.append_nil _).symm, Nat.zero_le 1⟩

namespace Run

variable {run : Run}

private theorem hasErrors_searched (herrors : run.hasErrors = true) :
    (Pass.searched run).hasErrors = true := by
  show (run.diagnostics ++ _).any (·.isError) = true
  rw [List.any_append, ← hasErrors, herrors, Bool.true_or]

/-- A run with errors that goes on to the search for a cycle has at most the cycle more to report. -/
theorem report_continues_searched (herrors : run.hasErrors = true) :
    run.report.Continues (Pass.searched run).report where
  success_eq := congrArg (!·) ((hasErrors_searched herrors).trans herrors.symm)
  table_eq := rfl
  protocol_eq := rfl
  rates_eq := rfl
  diagnostics_eq := by
    refine ⟨_, rfl, ?_, fun d hd => ?_⟩
    · rw [List.length_map]
      exact Pass.length_cyclesFound_le _ _
    · obtain ⟨cycle, -, rfl⟩ := List.mem_map.mp hd
      rfl
  violations_eq := by
    refine ⟨_, rfl, ?_⟩
    rw [List.length_map]
    exact Pass.length_cyclesFound_le _ _

end Run

namespace Analyzer

variable {g h : Graph} {config : Config} {pass : Pass} {later : List Pass} {reached next : Run}

/-- What follows a pass that has found an error skips the run, up to the search for a cycle. -/
theorem skips_of_hasErrors (harrive : arrive g config pass = some reached)
    (hclean : reached.hasErrors = false) (hsuffix : pass :: later <:+ Pass.all)
    (hrun : pass.run reached = .ok () next) (herrors : next.hasErrors = true) :
    later = [] ∨ ∃ idle, later = idle ++ [.liveness] ∧
      ∀ run : Run, run.table = next.table → run.safe = next.safe →
        ∀ pass ∈ idle, pass.Skips run := by
  have hlater : pass :: later ∈ Pass.all.tails := (List.mem_tails _ _).mpr hsuffix
  simp only [Pass.all, List.tails, List.mem_cons, List.cons.injEq, List.not_mem_nil, or_false,
    reduceCtorEq] at hlater
  by_cases hsilent : pass ∉ [.balance, .safety, .liveness]
  · rw [hasErrors_eq hsilent hrun, hclean] at herrors
    cases herrors
  have hspoilt {dangling errors : List Diagnostic} (h : next.Accounted dangling errors) :
      errors ≠ [] ∧ next.safe = false := by
    rw [h.hasErrors_eq] at herrors
    have hne : errors ≠ [] := by simpa using herrors
    exact ⟨hne, Bool.eq_false_of_not_eq_true fun hsafe =>
      hne (h.judged.errors_eq_nil_of_safe hsafe)⟩
  cases pass with
  | balance =>
    obtain rfl : later = [.users, .safety, .wiring, .liveness] := by simpa using hlater
    obtain ⟨dangling, hwarned⟩ := warned_of_arrive harrive
    obtain ⟨errors, haccounted, hclear⟩ := hwarned.balance hrun
    obtain ⟨hne, hsafe⟩ := hspoilt haccounted
    have htable := hclear.resolve_left hne
    refine .inr ⟨[.users, .safety, .wiring], rfl, fun run hrun hrun' => ?_⟩
    simp only [List.forall_mem_cons, List.not_mem_nil, false_imp_iff, implies_true, and_true]
    exact ⟨Pass.users_skips (hrun.trans htable), Pass.safety_skips (hrun.trans htable),
      Pass.wiring_skips (hrun'.trans hsafe)⟩
  | safety =>
    obtain rfl : later = [.wiring, .liveness] := by simpa using hlater
    obtain ⟨dangling, errors, haccounted, hclear⟩ := accounted_of_arrive_safety harrive
    obtain ⟨errors', hnext⟩ := haccounted.safety hclear hrun
    refine .inr ⟨[.wiring], rfl, fun run _ hrun' => ?_⟩
    rw [List.forall_mem_singleton]
    exact Pass.wiring_skips (hrun'.trans (hspoilt hnext).2)
  | liveness => exact .inl (by simpa using hlater)
  | _ => exact absurd (by decide) hsilent

/-- An analysis that stops at an error and one that goes on after it come to the same, or the second
one finds at most a cycle more. -/
theorem runAll_hasty (hcopied : Graph.Copied g h) (config : Config) :
    EndsAlike (Run.Twin Run.Hasty)
        (Pass.runAll Pass.all (opening g { config with stopOnError := true }))
        (Pass.runAll Pass.all (opening h { config with stopOnError := false })) ∨
      ∃ final final',
        Pass.runAll Pass.all (opening g { config with stopOnError := true }) = .ok () final ∧
        Pass.runAll Pass.all (opening h { config with stopOnError := false }) = .ok () final' ∧
        final.hasErrors = true ∧ final'.hasErrors = true ∧
        final.report.Continues final'.report ∧ Graph.Copied final.graph final'.graph := by
  have hopening : Run.Twin Run.Hasty (opening g { config with stopOnError := true })
      (opening h { config with stopOnError := false }) := by
    obtain ⟨types, known, forgotten⟩ := hcopied
    exact .intro (.intro ⟨types, known, forgotten⟩) ⟨rfl, rfl⟩
  refine (Pass.runAll_twin (by decide) hopening rfl).imp_right ?_
  rintro ⟨pass, later, reached, next, next', harrive, hsuffix, hrun, herrors, htwin,
    ⟨level, message, hstops⟩, hgoes⟩
  have hclean := Pass.hasErrors_of_arrive harrive rfl rfl
  have herrors' : next'.hasErrors = true := Bool.not_inj <|
    (congrArg Report.success htwin.report_eq).trans (congrArg (!·) herrors)
  rw [hgoes]
  obtain rfl | ⟨idle, rfl, hskips⟩ := skips_of_hasErrors harrive hclean hsuffix hrun herrors
  · exact ⟨_, _, hstops, rfl, herrors, herrors', htwin.report_eq ▸ Report.continues_refl _,
      htwin.graph_copied⟩
  · obtain ⟨journal, hsearch⟩ := Pass.runAll_skips_liveness htwin.stops_of.2
      (hskips next' (congrArg Report.table htwin.report_eq) htwin.safe_eq)
    refine ⟨_, _, hstops, hsearch, herrors, Run.hasErrors_searched herrors', ?_, htwin.graph_copied⟩
    show next.report.Continues (Pass.searched next').report
    rw [← htwin.report_eq]
    exact Run.report_continues_searched herrors'

/-- Two analyses that fail alike, or of which the second one reports what the first one does, and at
most a cycle more. -/
inductive Outlasts {σ : Type} (R : σ → σ → Prop) :
    EStateM.Result Failure σ Report → EStateM.Result Failure σ Report → Prop
  | ok {report longer : Report} {s t : σ} (hreport : report.Continues longer) (h : R s t) :
    Outlasts R (.ok report s) (.ok longer t)
  | error (e : Failure) {s t : σ} (h : R s t) : Outlasts R (.error e s) (.error e t)

private theorem Outlasts.of_endsAlike {σ : Type} {R : σ → σ → Prop}
    {ending ending' : EStateM.Result Failure σ Report} (h : EndsAlike R ending ending') :
    Outlasts R ending ending' := by
  cases h with
  | ok report h => exact .ok report.continues_refl h
  | error e h => exact .error e h

/-- The outcomes of analyses with errors are noted without the tables. -/
theorem noteOutcome_outlasts {run run' : Run} {s s' : AnalyzerState}
    (herrors : run.hasErrors = true) (herrors' : run'.hasErrors = true)
    (hreport : run.report.Continues run'.report) (hgraph : Graph.Copied s.graph s'.graph) :
    Outlasts (fun s t => Graph.Copied s.graph t.graph)
      ((noteOutcome run.report >>= fun _ => pure run.report) s)
      ((noteOutcome run'.report >>= fun _ => pure run'.report) s') := by
  have hsuccess : run.report.success = false := congrArg (!·) herrors
  have hsuccess' : run'.report.success = false := congrArg (!·) herrors'
  rw [noteOutcome, noteOutcome, hsuccess, hsuccess']
  exact .ok hreport hgraph

/-- Two runs of an analysis, one on a graph and one on its copy, where only the first stops at an
error: both fail with the same failure, or both return reports with the same outcome, table and
parameters and leave the same graph. The findings of the run that goes on begin with those of the
other, and after an error there is at most a cycle more. -/
theorem run_outlasts (hg : g.Reachable) (config : Config) (journal journal' : Journal) :
    ∃ copy, g.clone = .ok copy ∧
      Outlasts (fun s t => Graph.Copied s.graph t.graph)
        (Analyzer.run ⟨.new { config with stopOnError := true }, g, journal⟩)
        (Analyzer.run ⟨.new { config with stopOnError := false }, copy, journal'⟩) := by
  obtain ⟨copy, hclone, hcopied⟩ := hg.wellFormed.exists_clone
  refine ⟨copy, hclone, ?_⟩
  rw [run_of_new rfl, run_of_new rfl]
  dsimp only [new]
  rw [conduct_eq, conduct_eq]
  obtain halike | ⟨final, final', hall, hall', herrors, herrors', hreport, hgraph⟩ :=
    runAll_hasty hcopied config
  · have hends := halike.bind fun _ => matches_sumUp
    generalize (Pass.runAll Pass.all >>= fun _ => sumUp) (opening g _) = ending at hends
    generalize (Pass.runAll Pass.all >>= fun _ => sumUp) (opening copy _) = ending' at hends
    cases hends with
    | ok report htwin =>
      refine .of_endsAlike (Matches.bind (matches_noteOutcome (fun _ _ => id) fun _ _ =>
        matches_modify fun _ _ => id) (fun _ => matches_pure _) _ _ htwin.graph_copied)
    | error e htwin => exact .error e htwin.graph_copied
  · have hstopped : (Pass.runAll Pass.all >>= fun _ => sumUp)
        (opening g { config with stopOnError := true }) = .ok final.report final :=
      bind_eq_ok_iff.mpr ⟨(), final, hall, rfl⟩
    have hwent : (Pass.runAll Pass.all >>= fun _ => sumUp)
        (opening copy { config with stopOnError := false }) = .ok final'.report final' :=
      bind_eq_ok_iff.mpr ⟨(), final', hall', rfl⟩
    rw [hstopped, hwent]
    exact noteOutcome_outlasts herrors herrors' hreport hgraph

theorem run_outlasts_troubled :
    troubled.Reachable ∧ ∃ copy, troubled.clone = .ok copy ∧ ∃ report s longer t,
      Analyzer.run ⟨.new {}, troubled, []⟩ = .ok report s ∧
      report.diagnostics.map (·.code) = ["STRUCT001", "SPDF004", "SPDF002"] ∧
      Analyzer.run ⟨.new { stopOnError := false }, copy, []⟩ = .ok longer t ∧
      longer.diagnostics.map (·.code) = ["STRUCT001", "SPDF004", "SPDF002", "SPDF003"] ∧
      report.Continues longer ∧ Graph.Copied s.graph t.graph := by
  have hg : troubled.Reachable := (Graph.Reachable.empty none).performAll _
  obtain ⟨copy, hclone, houtlasts⟩ := run_outlasts hg {} [] []
  obtain ⟨report, s, hrun, hcodes⟩ := exists_of_codes?
    (show codes? ⟨.new {}, troubled, []⟩ =
      some ["STRUCT001", "SPDF004", "SPDF002"] by decide +kernel)
  have hlonger : troubled.clone.toOption.map (fun copy =>
      codes? ⟨.new { stopOnError := false }, copy, []⟩) =
        some (some ["STRUCT001", "SPDF004", "SPDF002", "SPDF003"]) := by
    decide +kernel
  rw [hclone] at hlonger
  obtain ⟨longer, t, hrun', hcodes'⟩ := exists_of_codes? (Option.some.inj hlonger)
  rw [hrun, hrun'] at houtlasts
  cases houtlasts with
  | ok hreport hgraph =>
    exact ⟨hg, copy, hclone, report, s, longer, t, hrun, hcodes, hrun', hcodes', hreport, hgraph⟩

end Analyzer

end Dataflow
