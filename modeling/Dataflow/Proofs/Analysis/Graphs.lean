import Dataflow.Proofs.Analysis.Success
import Dataflow.Proofs.Protocol.Operations

namespace Dataflow

open Dataflow.Action

namespace Protocol

/-- A property of a graph and its protocol that does not depend on what is found out about the
parameters. -/
structure Steady (P : Graph → Protocol → Prop) : Prop where
  addModified : ∀ g p a parameter, P g p → P g (p.addModified a parameter)
  addOccurrence : ∀ g p parameter, P g p → P g (p.addOccurrence parameter)
  withUses : ∀ g p uses, P g p → P g { p with uses }

theorem steady_feeders (P : Graph → List (Handle × Actor) → Prop) :
    Steady fun g p => P g p.feeders := by
  constructor <;> intros
  · unfold addModified
    split <;> assumption
  · unfold addOccurrence
    split <;> assumption
  · assumption

theorem steady_graph (P : Graph → Prop) : Steady fun g _ => P g :=
  steady_feeders fun g _ => P g

end Protocol

namespace Workspace

variable {P : Graph → Protocol → Prop}

private theorem keeps_parseRates : parseRates.Keeps fun w => P w.graph w.protocol :=
  keeps_read fun _ => (keeps_onRates _).bind fun _ => keeps_read fun _ => keeps_note

private theorem keeps_settleModifier {parameter : String} {sources : List Actor}
    (hP : Protocol.Steady P) :
    (settleModifier parameter sources).Keeps fun w => P w.graph w.protocol := by
  refine keeps_read fun w => (keeps_ofExcept _).bind fun m => ?_
  refine (keeps_mapM fun _ _ => keeps_ofExcept _).bind fun feeders => ?_
  split
  · exact keeps_updateProtocol fun g p => hP.addModified g p _ _
  · exact keeps_throw _

private theorem keeps_collectOccurrences {p : Port} (hP : Protocol.Steady P) :
    (collectOccurrences p).Keeps fun w => P w.graph w.protocol := by
  refine keeps_read fun w => (keeps_onRates _).bind fun found => ?_
  cases found with
  | none => exact keeps_pure _
  | some rate =>
    refine keeps_updateProtocol fun g p hp => ?_
    exact List.foldlRecOn rate.parameters _ hp fun p hp parameter _ => hP.addOccurrence g p _ hp

private theorem keeps_identifySources (hP : Protocol.Steady P) :
    identifySources.Keeps fun w => P w.graph w.protocol := by
  refine keeps_read fun w => (keeps_forM fun _ _ => keeps_settleModifier hP).bind fun _ => ?_
  refine keeps_read fun w => (keeps_forM fun _ _ => keeps_collectOccurrences hP).bind fun _ => ?_
  refine keeps_read fun w => ?_
  dsimp only
  split
  · exact keeps_note
  · exact keeps_pure _

private theorem keeps_noteBalance {g : Graph} {start : Actor}
    {verdict : Verdict Repetitions Inconsistency} :
    (noteBalance g start verdict).Keeps fun w => P w.graph w.protocol := by
  cases verdict with
  | success table => exact (keeps_ofExcept _).bind fun _ => keeps_note
  | violated evidence =>
    refine (keeps_ofExcept _).bind fun _ => keeps_note.bind fun _ => ?_
    exact (keeps_ofExcept _).bind fun _ => keeps_note

private theorem keeps_solve {start : Option Actor} :
    (solve start).Keeps fun w => P w.graph w.protocol := by
  refine keeps_read fun w => (keeps_onRates _).bind fun verdict => ?_
  cases w.graph.actors.head? with
  | none => exact keeps_pure _
  | some first => exact keeps_noteBalance.bind fun _ => keeps_pure _

section Uses

variable (hP : ∀ g p uses, P g p → P g { p with uses })
include hP

private theorem keeps_noteUses {a : Actor} {m : Monomial} :
    (noteUses a m).Keeps fun w => P w.graph w.protocol :=
  keeps_updateProtocol fun g p => hP g p _

private theorem keeps_identifyUsers {table : Repetitions} :
    (identifyUsers table).Keeps fun w => P w.graph w.protocol := by
  refine keeps_read fun w => keeps_forM fun a _ => ?_
  refine (keeps_ofExcept _).bind fun _ => (keeps_noteUses hP).bind fun _ => keeps_read fun w => ?_
  exact keeps_forM fun _ _ => (keeps_onRates _).bind fun _ => keeps_noteUses hP

end Uses

private theorem keeps_checkSafety {table : Repetitions} :
    (checkSafety table).Keeps fun w => P w.graph w.protocol := by
  refine keeps_read fun w => (keeps_ofExcept _).bind fun found => ?_
  cases found with
  | none => exact keeps_note.bind fun _ => keeps_pure _
  | some misuse =>
    exact (keeps_ofExcept _).bind fun _ => keeps_note.bind fun _ => keeps_pure _

private theorem keeps_checkLiveness : checkLiveness.Keeps fun w => P w.graph w.protocol := by
  refine keeps_read fun w => ?_
  cases Liveness.check w.graph with
  | success finished => exact keeps_note.bind fun _ => keeps_pure _
  | violated cycle => exact keeps_note.bind fun _ => keeps_pure _

end Workspace

namespace Run

variable {P : Graph → Protocol → Prop}

private theorem keeps_onWorkspace {α : Type} {action : Action Workspace α}
    (h : action.Keeps fun w => P w.graph w.protocol) :
    (onWorkspace action).Keeps fun run => P run.graph run.protocol :=
  h.within (fun _ hrun => hrun) fun _ _ _ hw => hw

private theorem keeps_note {level : Level} {message : String} :
    (note level message).Keeps fun run => P run.graph run.protocol :=
  keeps_onWorkspace Workspace.keeps_note

private theorem keeps_diagnose {d : Diagnostic} :
    (diagnose d).Keeps fun run => P run.graph run.protocol :=
  keeps_modify fun _ hrun => hrun

private theorem keeps_convict {code location : String} {violation : Violation} :
    (convict code location violation).Keeps fun run => P run.graph run.protocol := by
  refine Keeps.bind (keeps_modify fun _ hrun => hrun) fun _ => keeps_read fun run => ?_
  exact (keeps_ofExcept _).bind fun _ => keeps_diagnose

end Run

namespace Pass

section Findings

variable {P : Graph → Protocol → Prop}

private theorem keeps_reportDanglingPorts :
    reportDanglingPorts.Keeps fun run => P run.graph run.protocol :=
  keeps_read fun _ => keeps_forM fun _ _ => Run.keeps_diagnose

private theorem keeps_identifySources (hP : Protocol.Steady P) :
    identifySources.Keeps fun run => P run.graph run.protocol := by
  refine (Run.keeps_onWorkspace (Workspace.keeps_identifySources hP)).bind fun _ => ?_
  exact keeps_read fun _ => keeps_forM fun _ _ => Run.keeps_diagnose

private theorem keeps_solveBalanceFrom {start : Option Actor} :
    (solveBalanceFrom start).Keeps fun run => P run.graph run.protocol := by
  refine (Run.keeps_onWorkspace Workspace.keeps_solve).bind fun verdict => ?_
  cases verdict with
  | success table => exact keeps_modify fun _ hrun => hrun
  | violated evidence => exact keeps_read fun _ => Run.keeps_convict

theorem keeps_solveBalance : solveBalance.Keeps fun run => P run.graph run.protocol := by
  refine keeps_read fun run => ?_
  cases run.config.startActor with
  | none => exact keeps_solveBalanceFrom
  | some name => exact ((keeps_ofExcept _).map some).bind fun _ => keeps_solveBalanceFrom

theorem keeps_checkSafety : checkSafety.Keeps fun run => P run.graph run.protocol := by
  refine keeps_read fun run => ?_
  cases run.table with
  | none => exact keeps_pure _
  | some table =>
    refine (Run.keeps_onWorkspace Workspace.keeps_checkSafety).bind fun verdict => ?_
    cases verdict with
    | success _ => exact keeps_modify fun _ hrun => hrun
    | violated evidence =>
      exact Keeps.bind (keeps_modify fun _ hrun => hrun) fun _ => Run.keeps_convict

theorem keeps_lookForCycle {wanted : Bool} :
    (lookForCycle wanted).Keeps fun run => P run.graph run.protocol := by
  unfold lookForCycle
  split
  · refine (Run.keeps_onWorkspace Workspace.keeps_checkLiveness).bind fun verdict => ?_
    cases verdict with
    | success _ => exact keeps_pure _
    | violated cycle => exact Run.keeps_convict
  · exact keeps_pure _

/-- The passes that add nothing to the graph and do not look for the sources of the parameters leave
the graph alone, and note nothing but who uses the parameters. -/
theorem keeps_run_of_uses (huses : ∀ g p uses, P g p → P g { p with uses })
    {pass : Pass} (hpass : pass ∉ [.periodActors, .sources, .wiring]) :
    pass.run.Keeps fun run => P run.graph run.protocol := by
  cases pass with
  | periodActors => exact absurd (by decide) hpass
  | structural => exact keeps_reportDanglingPorts
  | rates => exact Run.keeps_onWorkspace Workspace.keeps_parseRates
  | sources => exact absurd (by decide) hpass
  | balance => exact keeps_solveBalance
  | users =>
    refine keeps_read fun run => ?_
    cases run.table with
    | none => exact keeps_pure _
    | some table => exact Run.keeps_onWorkspace (Workspace.keeps_identifyUsers huses)
  | safety => exact keeps_checkSafety
  | wiring => exact absurd (by decide) hpass
  | liveness => exact fun run => keeps_lookForCycle run

/-- The passes that add nothing to the graph leave it alone, and so does what they find out about the
parameters. -/
theorem keeps_run_of_steady (hP : Protocol.Steady P) {pass : Pass}
    (hpass : pass ∉ [.periodActors, .wiring]) :
    pass.run.Keeps fun run => P run.graph run.protocol := by
  by_cases hsources : pass = .sources
  · subst hsources
    exact keeps_identifySources hP
  · exact keeps_run_of_uses hP.withUses (by simpa [hsources] using hpass)

section Wiring

variable (hP : ∀ p, Graph.Wirable (P · p))
  (hconnected : ∀ g p, P g p → P g { p with connected := true })
include hP hconnected

private theorem keeps_wire {table : Repetitions} :
    (wire table).Keeps fun run => P run.graph run.protocol := by
  refine (Run.keeps_onWorkspace (Workspace.keeps_connectSources hP hconnected)).bind fun _ => ?_
  exact keeps_forM fun _ _ => Run.keeps_note

private theorem keeps_wireIf {wanted safe : Bool} {table : Option Repetitions} :
    (wireIf wanted safe table).Keeps fun run => P run.graph run.protocol := by
  unfold wireIf
  split
  · split
    · exact keeps_wire hP hconnected
    · exact Run.keeps_note
  · exact keeps_pure _

theorem keeps_wiring : wiring.run.Keeps fun run => P run.graph run.protocol :=
  fun run => keeps_wireIf hP hconnected run

/-- After the insertion of period actors the graph grows by deliveries only. -/
theorem keeps_run_of_wirable (hsteady : Protocol.Steady P) {pass : Pass}
    (hpass : pass ≠ .periodActors) : pass.run.Keeps fun run => P run.graph run.protocol := by
  by_cases hwire : pass = .wiring
  · subst hwire
    exact keeps_wiring hP hconnected
  · exact keeps_run_of_steady hsteady (by simp [hpass, hwire])

end Wiring

/-- Passes one after the other keep what each of them keeps. -/
theorem keeps_runAll {passes : List Pass}
    (h : ∀ pass ∈ passes, pass.run.Keeps fun run => P run.graph run.protocol) :
    (runAll passes).Keeps fun run => P run.graph run.protocol := by
  induction passes with
  | nil => exact keeps_pure _
  | cons pass passes ih =>
    obtain ⟨hfirst, hrest⟩ := List.forall_mem_cons.mp h
    refine Run.keeps_note.bind fun _ => hfirst.bind fun _ => keeps_read fun run => ?_
    split
    · exact Run.keeps_note
    · exact ih hrest

end Findings

variable {P : Graph → Prop} (hP : Graph.Lasting P)
include hP

/-- No pass breaks what no operation breaks. -/
theorem keeps_run (pass : Pass) : pass.run.Keeps fun run => P run.graph := by
  by_cases hinsert : pass = .periodActors
  · subst hinsert
    exact Run.keeps_onWorkspace (P := fun g _ => P g) (Workspace.keeps_insertPeriodActors hP)
  · exact keeps_run_of_wirable (P := fun g _ => P g) (fun _ => hP.wirable) (fun _ _ => id)
      (Protocol.steady_graph P) hinsert

end Pass

namespace Analyzer

theorem keeps_sumUp {P : Graph → Protocol → Prop} :
    sumUp.Keeps fun run => P run.graph run.protocol :=
  keeps_read fun _ => keeps_pure _

theorem keeps_noteOutcome {P : Graph → Prop} {report : Report} :
    (noteOutcome report).Keeps fun s => P s.graph := by
  have hnote (level : Level) (message : String) :
      (note level message).Keeps fun s => P s.graph :=
    keeps_modify fun _ hs => hs
  unfold noteOutcome
  split
  · cases report.table with
    | none => exact hnote _ _
    | some table => exact keeps_read fun _ => (keeps_ofExcept _).bind fun _ => hnote _ _
  · exact hnote _ _

variable {P : Graph → Prop} (hP : Graph.Lasting P)
include hP

private theorem keeps_conduct : conduct.Keeps fun run => P run.graph := by
  refine keeps_read fun run => Keeps.bind (Run.keeps_note (P := fun g _ => P g)) fun _ => ?_
  exact (Pass.keeps_runAll (P := fun g _ => P g) fun pass _ => Pass.keeps_run hP pass).bind
    fun _ => keeps_sumUp (P := fun g _ => P g)

/-- An analysis leaves a graph in which holds what no operation breaks, if it held before. -/
theorem keeps_run : Analyzer.run.Keeps fun s => P s.graph := by
  intro s hs
  have hstart : P (Run.start s.graph s.analyzer.config).graph := hs
  have hconduct := keeps_conduct hP _ hstart
  unfold after at hconduct ⊢
  cases hstarted : s.analyzer.started with
  | true =>
    rw [run_of_started hstarted]
    exact hs
  | false =>
    rw [run_of_new hstarted]
    generalize conduct (Run.start s.graph s.analyzer.config) = ending at hconduct ⊢
    cases ending with
    | ok report run =>
      have hpassed : P (passed s (some report) run).graph := hconduct
      exact (keeps_noteOutcome.bind fun _ => keeps_pure _) _ hpassed
    | error e run => exact hconduct

end Analyzer

end Dataflow
