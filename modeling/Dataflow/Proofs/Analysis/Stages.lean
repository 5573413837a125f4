import Dataflow.Analysis.Analyzer
import Dataflow.Proofs.Action
import Dataflow.Proofs.Except

namespace Dataflow

open Dataflow.Action Text

namespace Diagnostic

/-- An error of a code that rests on a violation. -/
structure Reports (d : Diagnostic) (code : String) (violation : Violation) : Prop where
  severity_eq : d.severity = .error
  code_eq : d.code = code
  payload_eq : d.payload = some violation

/-- A warning of a code. -/
structure Warns (d : Diagnostic) (code : String) : Prop where
  severity_eq : d.severity = .warning
  code_eq : d.code = code

theorem Reports.isError {d : Diagnostic} {code : String} {violation : Violation}
    (h : d.Reports code violation) : d.isError = true := by
  rw [Diagnostic.isError, h.severity_eq]
  rfl

theorem Warns.isError {d : Diagnostic} {code : String} (h : d.Warns code) : d.isError = false := by
  rw [Diagnostic.isError, h.severity_eq]
  rfl

end Diagnostic

namespace Run

/-- A run with one more record in its journal. -/
def noted (run : Run) (level : Level) (message : String) : Run :=
  { run with journal := run.journal.note level message }

theorem onWorkspace_eq_ok_iff {α : Type} {action : Action Workspace α} {run run' : Run} {a : α} :
    onWorkspace action run = .ok a run' ↔
      ∃ w, action run.toWorkspace = .ok a w ∧ run' = { run with toWorkspace := w } :=
  within_eq_ok_iff

theorem diagnoseAll_eq {α : Type} (finding : α → Diagnostic) (items : List α) (run : Run) :
    items.forM (fun a => diagnose (finding a)) run =
      .ok () { run with diagnostics := run.diagnostics ++ items.map finding } := by
  induction items generalizing run with
  | nil =>
    rw [List.map_nil, List.append_nil]
    rfl
  | cons a items ih =>
    refine (ih { run with diagnostics := run.diagnostics ++ [finding a] }).trans ?_
    rw [List.map_cons, List.append_assoc]
    rfl

/-- Writing records changes nothing but the journal. -/
theorem noteAll_eq {α : Type} (level : Level) (text : α → String) (items : List α) (run : Run) :
    ∃ journal, items.forM (fun a => note level (text a)) run = .ok () { run with journal } := by
  induction items generalizing run with
  | nil => exact ⟨run.journal, rfl⟩
  | cons a items ih => exact ih (run.noted level (text a))

private theorem convict_eq_ok {code location : String} {violation : Violation} {run run' : Run}
    (h : convict code location violation run = .ok () run') :
    ∃ d : Diagnostic, d.Reports code violation ∧ run' = { run with
      violations := run.violations ++ [violation], diagnostics := run.diagnostics ++ [d] } := by
  obtain ⟨_, _, hupdate, h⟩ := bind_eq_ok_iff.mp h
  cases hupdate
  obtain ⟨_, _, hget, h⟩ := bind_eq_ok_iff.mp h
  cases hget
  obtain ⟨report, _, hreport, h⟩ := bind_eq_ok_iff.mp h
  obtain ⟨-, rfl⟩ := lift_eq_ok_iff.mp hreport
  cases h
  exact ⟨_, ⟨rfl, rfl, rfl⟩, rfl⟩

end Run

namespace Pass

section Outcomes

variable {run run' : Run}

theorem periodActors_eq_ok (h : periodActors.run run = .ok () run') :
    ∃ w, Workspace.insertPeriodActors run.toWorkspace = .ok () w ∧
      run' = { run with toWorkspace := w } :=
  Run.onWorkspace_eq_ok_iff.mp h

theorem structural_eq_ok (h : structural.run run = .ok () run') :
    ∃ findings : List Diagnostic, (∀ d ∈ findings, d.Warns "STRUCT001") ∧
      run' = { run with diagnostics := run.diagnostics ++ findings } := by
  obtain ⟨_, _, hget, h⟩ := bind_eq_ok_iff.mp h
  cases hget
  rw [Run.diagnoseAll_eq] at h
  cases h
  refine ⟨_, fun d hd => ?_, rfl⟩
  obtain ⟨p, -, rfl⟩ := List.mem_map.mp hd
  exact ⟨rfl, rfl⟩

theorem rates_eq_ok (h : rates.run run = .ok () run') :
    ∃ w, Workspace.parseRates run.toWorkspace = .ok () w ∧
      run' = { run with toWorkspace := w } :=
  Run.onWorkspace_eq_ok_iff.mp h

/-- The warning about a parameter of the environment. -/
def environmentFinding (parameter : String) : Diagnostic :=
  .warning "SPDF004"
    s!"Parameter '{parameter}' has no modifier and is treated as an environment constant"
    (some parameter)

theorem sources_eq_ok (h : sources.run run = .ok () run') :
    ∃ w, Workspace.identifySources run.toWorkspace = .ok () w ∧ run' = { run with
      toWorkspace := w
      diagnostics := run.diagnostics ++ w.protocol.environment.map environmentFinding } := by
  obtain ⟨_, _, hstep, h⟩ := bind_eq_ok_iff.mp h
  obtain ⟨w, hidentify, rfl⟩ := Run.onWorkspace_eq_ok_iff.mp hstep
  obtain ⟨_, _, hget, h⟩ := bind_eq_ok_iff.mp h
  cases hget
  rw [Run.diagnoseAll_eq] at h
  cases h
  exact ⟨w, hidentify, rfl⟩

/-- Solve the balance equations from a given actor. -/
def solveBalanceFrom (start : Option Actor) : Action Run Unit := do
  match ← Run.onWorkspace (Workspace.solve start) with
  | .success table => modify fun run => { run with table := some table }
  | .violated evidence =>
    Run.convict "SPDF001" ((← get).graph.channelText evidence.reference) (.inconsistency evidence)

/-- The actor that the equations are solved from is one of the graph. -/
theorem exists_solveBalanceFrom (h : solveBalance run = .ok () run') :
    ∃ start, (∀ a ∈ start, ∃ name, run.graph.actorNamed name = .ok a) ∧
      solveBalanceFrom start run = .ok () run' := by
  obtain ⟨_, _, hget, h⟩ := bind_eq_ok_iff.mp h
  cases hget
  cases hname : run.config.startActor with
  | none =>
    simp only [hname] at h
    exact ⟨none, by simp, h⟩
  | some name =>
    simp only [hname, map_eq_pure_bind] at h
    obtain ⟨start, _, hstart, h⟩ := bind_eq_ok_iff.mp h
    obtain ⟨a, _, hlift, hpure⟩ := bind_eq_ok_iff.mp hstart
    obtain ⟨ha, rfl⟩ := lift_eq_ok_iff.mp hlift
    cases hpure
    exact ⟨some a, by simpa using ⟨name, ha⟩, h⟩

/-- The equations are solved from an actor of the graph, and their solution is kept. -/
theorem balance_eq_ok (h : balance.run run = .ok () run') :
    ∃ start verdict w, (∀ a ∈ start, ∃ name, run.graph.actorNamed name = .ok a) ∧
      Workspace.solve start run.toWorkspace = .ok verdict w ∧
      ((∃ table, verdict = .success table ∧
          run' = { run with toWorkspace := w, table := some table }) ∨
        ∃ evidence, ∃ d : Diagnostic, verdict = .violated evidence ∧
          d.Reports "SPDF001" (.inconsistency evidence) ∧ run' = { run with
            toWorkspace := w
            violations := run.violations ++ [.inconsistency evidence]
            diagnostics := run.diagnostics ++ [d] }) := by
  obtain ⟨start, hstart, h⟩ := exists_solveBalanceFrom h
  obtain ⟨verdict, _, hstep, h⟩ := bind_eq_ok_iff.mp h
  obtain ⟨w, hsolve, rfl⟩ := Run.onWorkspace_eq_ok_iff.mp hstep
  refine ⟨start, verdict, w, hstart, hsolve, ?_⟩
  cases verdict with
  | success table =>
    cases h
    exact .inl ⟨table, rfl, rfl⟩
  | violated evidence =>
    obtain ⟨_, _, hget, h⟩ := bind_eq_ok_iff.mp h
    cases hget
    obtain ⟨d, hd, rfl⟩ := Run.convict_eq_ok h
    exact .inr ⟨evidence, d, rfl, hd, rfl⟩

theorem users_eq_ok (h : users.run run = .ok () run') :
    (run.table = none ∧ run' = run) ∨ ∃ table w, run.table = some table ∧
      Workspace.identifyUsers table run.toWorkspace = .ok () w ∧
      run' = { run with toWorkspace := w } := by
  obtain ⟨_, _, hget, h⟩ := bind_eq_ok_iff.mp h
  cases hget
  obtain htable | ⟨table, htable⟩ := Option.eq_none_or_eq_some run.table
  · simp only [htable] at h
    cases h
    exact .inl ⟨htable, rfl⟩
  · simp only [htable] at h
    obtain ⟨w, hidentify, heq⟩ := Run.onWorkspace_eq_ok_iff.mp h
    exact .inr ⟨table, w, htable, hidentify, heq⟩

theorem safety_eq_ok (h : safety.run run = .ok () run') :
    (run.table = none ∧ run' = run) ∨ ∃ table verdict w, run.table = some table ∧
      Workspace.checkSafety table run.toWorkspace = .ok verdict w ∧
      ((verdict = .success () ∧ run' = { run with toWorkspace := w, safe := true }) ∨
        ∃ evidence, ∃ d : Diagnostic, verdict = .violated evidence ∧
          d.Reports "SPDF002" (.misuse evidence) ∧ run' = { run with
            toWorkspace := w
            safe := false
            violations := run.violations ++ [.misuse evidence]
            diagnostics := run.diagnostics ++ [d] }) := by
  obtain ⟨_, _, hget, h⟩ := bind_eq_ok_iff.mp h
  cases hget
  obtain htable | ⟨table, htable⟩ := Option.eq_none_or_eq_some run.table
  · simp only [htable] at h
    cases h
    exact .inl ⟨htable, rfl⟩
  · simp only [htable] at h
    obtain ⟨verdict, _, hstep, h⟩ := bind_eq_ok_iff.mp h
    obtain ⟨w, hcheck, rfl⟩ := Run.onWorkspace_eq_ok_iff.mp hstep
    refine .inr ⟨table, verdict, w, htable, hcheck, ?_⟩
    cases verdict with
    | success _ =>
      cases h
      exact .inl ⟨rfl, rfl⟩
    | violated evidence =>
      obtain ⟨_, _, hupdate, h⟩ := bind_eq_ok_iff.mp h
      cases hupdate
      obtain ⟨d, hd, rfl⟩ := Run.convict_eq_ok h
      exact .inr ⟨evidence, d, rfl, hd, rfl⟩

/-- Deliver the parameters to their users. -/
def wire (table : Repetitions) : Action Run Unit := do
  let created ← Run.onWorkspace (Workspace.connectSources table)
  (targetsBySource created).forM fun group =>
    Run.note .info s!"Wired {group.1} to {quoteList group.2}"

/-- What the wiring does as it is wanted and safe or not. -/
def wireIf (wanted safe : Bool) (table : Option Repetitions) : Action Run Unit := do
  if wanted then
    match safe, table with
    | true, some table => wire table
    | _, _ => Run.note .debug "Skipping parameter wiring: graph is not known to be safe"

theorem wiring_run (run : Run) :
    wiring.run run = wireIf run.config.connectUsers run.safe run.table run := rfl

/-- The wiring is left out unless it is wanted and safe. -/
theorem wireIf_cases (wanted safe : Bool) (table : Option Repetitions) (run : Run) :
    ((wanted = false ∨ safe = false ∨ table = none) ∧
        ∃ journal, wireIf wanted safe table run = .ok () { run with journal }) ∨
      ∃ found, wanted = true ∧ safe = true ∧ table = some found ∧
        wireIf wanted safe table run = wire found run := by
  cases wanted with
  | false => exact .inl ⟨.inl rfl, run.journal, rfl⟩
  | true =>
    cases safe with
    | false => exact .inl ⟨.inr (.inl rfl), _, by cases table <;> rfl⟩
    | true =>
      cases table with
      | none => exact .inl ⟨.inr (.inr rfl), _, rfl⟩
      | some found => exact .inr ⟨found, rfl, rfl, rfl, rfl⟩

theorem wire_eq_ok {table : Repetitions} (h : wire table run = .ok () run') :
    ∃ created w journal, Workspace.connectSources table run.toWorkspace = .ok created w ∧
      run' = { run with toWorkspace := { w with journal } } := by
  obtain ⟨created, _, hstep, h⟩ := bind_eq_ok_iff.mp h
  obtain ⟨w, hconnect, rfl⟩ := Run.onWorkspace_eq_ok_iff.mp hstep
  obtain ⟨journal, hnotes⟩ := Run.noteAll_eq .info
    (fun group : String × List String => s!"Wired {group.1} to {quoteList group.2}")
    (targetsBySource created) { run with toWorkspace := w }
  rw [hnotes] at h
  cases h
  exact ⟨created, w, journal, hconnect, rfl⟩

/-- The wiring finds nothing. -/
theorem wiring_eq_ok (h : wiring.run run = .ok () run') :
    ∃ w, run' = { run with toWorkspace := w } := by
  rw [wiring_run] at h
  obtain ⟨-, journal, heq⟩ | ⟨found, -, -, -, heq⟩ :=
    wireIf_cases run.config.connectUsers run.safe run.table run
  · rw [heq] at h
    cases h
    exact ⟨_, rfl⟩
  · rw [heq] at h
    obtain ⟨created, w, journal, -, rfl⟩ := wire_eq_ok h
    exact ⟨_, rfl⟩

/-- The wiring fails only when a delivery does. -/
theorem wire_eq_error {table : Repetitions} {e : Failure} (h : wire table run = .error e run') :
    ∃ w, Workspace.connectSources table run.toWorkspace = .error e w := by
  obtain hstep | ⟨created, r, -, h⟩ := bind_eq_error_iff.mp h
  · exact within_eq_error hstep
  · obtain ⟨journal, hnotes⟩ := Run.noteAll_eq .info
      (fun group : String × List String => s!"Wired {group.1} to {quoteList group.2}")
      (targetsBySource created) r
    rw [hnotes] at h
    cases h

end Outcomes

/-- The run as it stands when the pass `target` is about to be carried out, if it comes to that. -/
def arrive (target : Pass) : List Pass → Run → Option Run
  | [], _ => none
  | pass :: passes, run =>
    let run := run.noted .debug s!"Running pass {pass.name}"
    if pass = target then some run
    else
      match pass.run run with
      | .error _ _ => none
      | .ok _ run =>
        if run.config.stopOnError && run.hasErrors then none else arrive target passes run

/-- A pass and what follows it. -/
def resume (pass : Pass) (later : List Pass) : Action Run Unit := do
  pass.run
  let run ← get
  if run.config.stopOnError && run.hasErrors then
    Run.note .debug s!"Pass {pass.name} reported errors, stopping"
  else runAll later

theorem runAll_cons (pass : Pass) (passes : List Pass) (run : Run) :
    runAll (pass :: passes) run =
      pass.resume passes (run.noted .debug s!"Running pass {pass.name}") := rfl

/-- After a pass the analysis stops at an error, or goes on. -/
theorem resume_of_ok {pass : Pass} {later : List Pass} {run next : Run}
    (h : pass.run run = .ok () next) :
    pass.resume later run = if next.config.stopOnError && next.hasErrors
      then .ok () (next.noted .debug s!"Pass {pass.name} reported errors, stopping")
      else runAll later next := by
  unfold resume
  show EStateM.bind pass.run _ _ = _
  unfold EStateM.bind
  rw [h]
  show (if _ then _ else _ : Action Run Unit) next = _
  split <;> rfl

theorem resume_of_error {pass : Pass} {later : List Pass} {run final : Run} {e : Failure}
    (h : pass.run run = .error e final) : pass.resume later run = .error e final := by
  unfold resume
  show EStateM.bind pass.run _ _ = _
  unfold EStateM.bind
  rw [h]

section Arrival

variable {target pass : Pass} {passes : List Pass} {run reached final : Run}

/-- On the way to a pass the ones before it succeed. -/
theorem exists_of_arrive_cons (hne : pass ≠ target)
    (h : arrive target (pass :: passes) run = some reached) :
    ∃ next, pass.run (run.noted .debug s!"Running pass {pass.name}") = .ok () next ∧
      arrive target passes next = some reached := by
  rw [arrive] at h
  simp only [if_neg hne] at h
  split at h
  · cases h
  · rename_i next hrun
    split at h
    · cases h
    · exact ⟨next, hrun, h⟩

theorem arrive_self : arrive target (target :: passes) run =
    some (run.noted .debug s!"Running pass {target.name}") := by
  simp [arrive]

/-- Past a pass that succeeds the analysis goes on to the others. -/
theorem arrive_cons_of_ok {next : Run} (hne : pass ≠ target)
    (hpass : pass.run (run.noted .debug s!"Running pass {pass.name}") = .ok () next)
    (hgo : (next.config.stopOnError && next.hasErrors) = false) :
    arrive target (pass :: passes) run = arrive target passes next := by
  rw [arrive]
  simp only [if_neg hne, hpass, hgo]
  rfl

theorem mem_of_arrive (h : arrive target passes run = some reached) : target ∈ passes := by
  induction passes generalizing run with
  | nil => simp [arrive] at h
  | cons pass passes ih =>
    by_cases heq : pass = target
    · exact heq ▸ List.mem_cons_self
    · obtain ⟨next, -, h⟩ := exists_of_arrive_cons heq h
      exact List.mem_cons_of_mem _ (ih h)

theorem eq_of_arrive_self (h : arrive target (target :: passes) run = some reached) :
    reached = run.noted .debug s!"Running pass {target.name}" := by
  simpa [arrive] using h.symm

/-- What the passes before one of them keep, and does not depend on the journal, still holds when the
analysis arrives there. -/
theorem arrive_invariant {I : Run → Prop}
    (hnoted : ∀ run level message, I run → I (run.noted level message))
    (hstep : ∀ pass ∈ passes.takeWhile (· ≠ target), ∀ run run', I run →
      pass.run run = .ok () run' → I run') (hrun : I run)
    (h : arrive target passes run = some reached) : I reached := by
  induction passes generalizing run with
  | nil => simp [arrive] at h
  | cons pass passes ih =>
    by_cases heq : pass = target
    · subst heq
      rw [eq_of_arrive_self h]
      exact hnoted _ _ _ hrun
    · rw [List.takeWhile_cons_of_pos (by simpa using heq)] at hstep
      obtain ⟨hfirst, hrest⟩ := List.forall_mem_cons.mp hstep
      obtain ⟨next, hpass, h⟩ := exists_of_arrive_cons heq h
      exact ih hrest (hfirst _ _ (hnoted _ _ _ hrun) hpass) h

/-- An analysis arrives at a pass by way of the one before it. -/
theorem arrive_step (before : List Pass) {later : List Pass} (hpass : pass ∉ before)
    (htarget : target ∉ before) (hne : pass ≠ target)
    (h : arrive target (before ++ pass :: target :: later) run = some reached) :
    ∃ previous next, arrive pass (before ++ pass :: target :: later) run = some previous ∧
      pass.run previous = .ok () next ∧
      reached = next.noted .debug s!"Running pass {target.name}" := by
  induction before generalizing run with
  | nil =>
    obtain ⟨next, hrun, h⟩ := exists_of_arrive_cons hne h
    exact ⟨_, next, arrive_self, hrun, eq_of_arrive_self h⟩
  | cons first before ih =>
    have hfirst : first ≠ pass := fun heq => hpass (heq ▸ List.mem_cons_self)
    have hfirst' : first ≠ target := fun heq => htarget (heq ▸ List.mem_cons_self)
    have hrest : pass ∉ before := fun hmem => hpass (List.mem_cons_of_mem _ hmem)
    have hrest' : target ∉ before := fun hmem => htarget (List.mem_cons_of_mem _ hmem)
    rw [List.cons_append, arrive] at h ⊢
    simp only [if_neg hfirst, if_neg hfirst'] at h ⊢
    split at h
    · cases h
    · split at h
      · cases h
      · rename_i hgo
        rw [if_neg hgo]
        exact ih hrest hrest' h

/-- An analysis that arrives at a pass goes on from there. -/
theorem runAll_of_arrive (h : arrive target passes run = some reached) :
    ∃ later, target :: later <:+ passes ∧ runAll passes run = target.resume later reached := by
  induction passes generalizing run with
  | nil => simp [arrive] at h
  | cons pass passes ih =>
    by_cases hpass : pass = target
    · subst hpass
      rw [eq_of_arrive_self h]
      exact ⟨passes, List.suffix_refl _, runAll_cons pass passes run⟩
    · rw [arrive] at h
      simp only [if_neg hpass] at h
      split at h
      · cases h
      · rename_i next hrun
        split at h
        · cases h
        · rename_i hgo
          obtain ⟨later, hsuffix, heq⟩ := ih h
          refine ⟨later, hsuffix.trans (List.suffix_cons _ _), ?_⟩
          rw [runAll_cons, ← heq, resume_of_ok hrun, if_neg hgo]

end Arrival

end Pass

namespace Analyzer

/-- The run with which the analysis of a graph begins. -/
def opening (g : Graph) (config : Config) : Run :=
  let name := g.name.getD "None"
  (Run.start g config).noted .info
    s!"Analyzing graph {name}: {g.actors.length} actors, {g.channels.length} channels"

/-- The run as it stands when the analysis of a graph arrives at a pass, if it does. -/
def arrive (g : Graph) (config : Config) (pass : Pass) : Option Run :=
  pass.arrive Pass.all (opening g config)

/-- Report what the passes have found. -/
def sumUp : Action Run Report := do
  return (← get).report

theorem conduct_eq (g : Graph) (config : Config) :
    conduct (Run.start g config) = (Pass.runAll Pass.all >>= fun _ => sumUp) (opening g config) :=
  rfl

end Analyzer

end Dataflow
