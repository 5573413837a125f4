import Dataflow.Proofs.Graph.Copy
import Dataflow.Protocol.Safety
import Dataflow.Protocol.Sources
import Dataflow.Protocol.Users

namespace Dataflow

open Dataflow.Action

section Reading

variable {g h : Graph}

private theorem Balance.propagate_copied (hcopied : Graph.Copied g h) (fractions : Fractions)
    (tree : List Link) : propagate h fractions tree = propagate g fractions tree := by
  obtain ⟨types, -, -⟩ := hcopied
  induction tree generalizing fractions with
  | nil => rfl
  | cons link tree ih =>
    unfold propagate
    simp only [ih]
    rfl

private theorem Balance.mismatch?_copied (hcopied : Graph.Copied g h) (fractions : Fractions)
    (channels : List Channel) :
    mismatch? h fractions channels = mismatch? g fractions channels := by
  obtain ⟨types, -, -⟩ := hcopied
  induction channels with
  | nil => rfl
  | cons c channels ih =>
    unfold mismatch?
    simp only [ih]
    rfl

/-- The balance equations of a copy are those of its original. -/
theorem Balance.solve_copied (hcopied : Graph.Copied g h) (start : Option Actor) :
    solve h start = solve g start := by
  -- The tree, the scaling and the rates are read off actors, ports and channels alone.
  have hsolveFrom (a : Actor) : solveFrom h a = solveFrom g a := by
    unfold solveFrom
    simp only [propagate_copied hcopied, mismatch?_copied hcopied]
    obtain ⟨types, -, -⟩ := hcopied
    rfl
  unfold solve
  simp only [hsolveFrom]
  obtain ⟨types, -, -⟩ := hcopied
  rfl

private theorem Liveness.check_copied (hcopied : Graph.Copied g h) : check h = check g := by
  obtain ⟨types, -, -⟩ := hcopied
  rfl

end Reading

namespace Workspace

/-- The workspace with a copy of its graph. -/
inductive Copied (w : Workspace) : Workspace → Prop
  | intro {graph : Graph} (h : Graph.Copied w.graph graph) : Copied w { w with graph }

private theorem matches_onGraph {α : Type} {action action' : Action Graph α}
    (h : Matches Graph.Copied action action') :
    Matches Copied (onGraph action) (onGraph action') := by
  refine h.within ?_ ?_
  · rintro w _ ⟨hgraph⟩
    exact hgraph
  · rintro w _ g g' ⟨-⟩ hgraph
    exact .intro hgraph

private theorem matches_onRates {α : Type} (action : Action RateCache α) :
    Matches Copied (onRates action) (onRates action) := by
  refine (matches_eq action).within ?_ ?_
  · rintro w _ ⟨-⟩
    rfl
  · rintro w _ rates _ ⟨hgraph⟩ rfl
    exact .intro hgraph

/-- To match a continuation of `get`, match it from each workspace and its copy. -/
theorem matches_read {α : Type} {next : Workspace → Action Workspace α}
    (h : ∀ w types, Matches Copied (next w) (next { w with graph := { w.graph with types } })) :
    Matches Copied (get >>= next) (get >>= next) := by
  refine matches_get_bind ?_
  rintro w _ ⟨⟨types, -, -⟩⟩
  exact h w types

private theorem matches_updateProtocol (change : Protocol → Protocol) :
    Matches Copied (updateProtocol change) (updateProtocol change) := by
  refine matches_modify ?_
  rintro w _ ⟨hgraph⟩
  exact .intro hgraph

theorem matches_note (level : Level) (message : String) :
    Matches Copied (note level message) (note level message) := by
  refine matches_modify ?_
  rintro w _ ⟨hgraph⟩
  exact .intro hgraph

section Sources

private theorem matches_insertPeriodActor {output type name : String} {feeder : Actor} :
    Matches Copied (insertPeriodActor output type name feeder)
      (insertPeriodActor output type name feeder) := by
  refine (matches_onGraph Graph.matches_addActor).bind fun source => ?_
  refine (matches_onGraph Graph.matches_addChannel).bind fun _ => ?_
  exact (matches_updateProtocol _).bind fun _ => matches_pure _

private theorem matches_insertPeriodActorsOf {m : Modifier} :
    Matches Copied (insertPeriodActorsOf m) (insertPeriodActorsOf m) := by
  refine (matches_onGraph Graph.matches_addPort).bind fun _ => ?_
  refine (matches_onGraph Graph.matches_addPort).bind fun _ => matches_read fun w types => ?_
  refine (matches_mapM fun item => matches_insertPeriodActor).bind fun sources => ?_
  exact (matches_updateProtocol _).bind fun _ => matches_note _ _

theorem matches_insertPeriodActors : Matches Copied insertPeriodActors insertPeriodActors := by
  refine matches_read fun w types => ?_
  refine .ite (matches_throw _) ?_
  refine (matches_updateProtocol _).bind fun _ => matches_read fun w types => ?_
  exact matches_forM fun m => matches_insertPeriodActorsOf

theorem matches_parseRates : Matches Copied parseRates parseRates := by
  refine matches_read fun w types => ?_
  refine (matches_onRates (RateCache.parseAll w.graph)).bind fun _ => matches_read fun w types => ?_
  exact matches_note _ _

private theorem matches_settleModifier {parameter : String} {sources : List Actor} :
    Matches Copied (settleModifier parameter sources) (settleModifier parameter sources) := by
  refine matches_read fun w types => ?_
  refine (matches_lift (w.graph.modifierOf parameter)).bind fun m => ?_
  have hfeeder (source : Actor) := matches_lift (R := Copied) (w.protocol.feederOf source)
  refine (matches_mapM hfeeder).bind fun feeders => ?_
  split
  · exact matches_updateProtocol _
  · exact matches_throw _

private theorem matches_collectOccurrences {p : Port} :
    Matches Copied (collectOccurrences p) (collectOccurrences p) := by
  refine matches_read fun w types => ?_
  refine (matches_onRates (RateCache.rate? w.graph p)).bind fun found => ?_
  cases found with
  | none => exact matches_pure _
  | some rate => exact matches_updateProtocol _

theorem matches_identifySources : Matches Copied identifySources identifySources := by
  refine matches_read fun w types => ?_
  refine (matches_forM fun entry => matches_settleModifier).bind fun _ => ?_
  refine matches_read fun w types => ?_
  refine (matches_forM fun p => matches_collectOccurrences).bind fun _ => ?_
  refine matches_read fun w types => ?_
  exact .ite (matches_note _ _) (matches_pure _)

end Sources

section Balance

private theorem matches_noteBalance {g h : Graph} (hcopied : Graph.Copied g h) {start : Actor}
    {verdict : Verdict Repetitions Inconsistency} :
    Matches Copied (noteBalance g start verdict) (noteBalance h start verdict) := by
  obtain ⟨types, -, -⟩ := hcopied
  cases verdict with
  | success table => exact (matches_lift (table.render g)).bind fun _ => matches_note _ _
  | violated evidence =>
    refine (matches_lift evidence.ratio.render).bind fun ratio => ?_
    refine (matches_note _ _).bind fun _ => ?_
    exact (matches_lift (evidence.report g)).bind fun report => matches_note _ _

/-- The balance equations of a copy come out as those of its original, and from the same parsed
rates. -/
theorem matches_solve {start : Option Actor} : Matches Copied (solve start) (solve start) := by
  refine matches_get_bind ?_
  rintro w _ ⟨hgraph⟩
  dsimp only
  rw [Balance.solve_copied hgraph, hgraph.actors_eq]
  refine (matches_onRates (Balance.solve w.graph start)).bind fun verdict => ?_
  cases w.graph.actors.head? with
  | none => exact matches_pure _
  | some first => exact (matches_noteBalance hgraph).bind fun _ => matches_pure _

end Balance

section Users

variable {table : Repetitions} {parameter : String} {source : Actor} {sourceCount : Monomial}

private theorem matches_noteUses {a : Actor} {m : Monomial} :
    Matches Copied (noteUses a m) (noteUses a m) :=
  matches_updateProtocol _

private theorem matches_identifyUsesOf {a : Actor} :
    Matches Copied (identifyUsesOf table a) (identifyUsesOf table a) := by
  refine (matches_lift (table.get a)).bind fun count => matches_noteUses.bind fun _ => ?_
  refine matches_read fun w types => ?_
  refine matches_forM fun link => ?_
  exact (matches_onRates (RateCache.rate w.graph link.near.port)).bind fun _ => matches_noteUses

theorem matches_identifyUsers :
    Matches Copied (identifyUsers table) (identifyUsers table) := by
  refine matches_read fun w types => ?_
  exact matches_forM fun a => matches_identifyUsesOf

private theorem matches_connectUser {index : Nat} {user : Actor} :
    Matches Copied (connectUser table parameter source sourceCount index user)
      (connectUser table parameter source sourceCount index user) := by
  refine (matches_lift _).bind fun _ => (matches_lift _).bind fun _ => ?_
  refine (matches_lift _).bind fun _ => (matches_onGraph Graph.matches_addPort).bind fun _ => ?_
  refine (matches_onGraph Graph.matches_ensurePort).bind fun _ => ?_
  exact matches_onGraph Graph.matches_addChannel

private theorem matches_connectUsers {index : Nat} {users : List Actor} :
    Matches Copied (connectUsers table parameter source sourceCount index users)
      (connectUsers table parameter source sourceCount index users) := by
  induction users generalizing index with
  | nil => exact matches_pure _
  | cons user users ih =>
    refine matches_read fun w types => ?_
    refine .ite ih ?_
    exact matches_connectUser.bind fun _ => ih.bind fun _ => matches_pure _

private theorem matches_connectParameter :
    Matches Copied (connectParameter table parameter) (connectParameter table parameter) := by
  refine matches_read fun w types => ?_
  dsimp only
  cases w.protocol.source? parameter with
  | none => exact matches_pure _
  | some source => exact (matches_lift (table.get source)).bind fun _ => matches_connectUsers

theorem matches_connectSources :
    Matches Copied (connectSources table) (connectSources table) := by
  refine matches_read fun w types => ?_
  refine .ite (matches_throw _) ?_
  refine (matches_updateProtocol _).bind fun _ => matches_read fun w types => ?_
  refine (matches_mapM fun _ => matches_connectParameter).bind fun created => ?_
  exact (matches_note _ _).bind fun _ => matches_pure _

end Users

theorem matches_checkSafety {table : Repetitions} :
    Matches Copied (checkSafety table) (checkSafety table) := by
  refine matches_read fun w types => ?_
  refine (matches_lift (w.protocol.misuse? table)).bind fun found => ?_
  cases found with
  | none => exact (matches_note _ _).bind fun _ => matches_pure _
  | some misuse =>
    refine (matches_lift misuse.report).bind fun report => ?_
    exact (matches_note _ _).bind fun _ => matches_pure _

theorem matches_checkLiveness : Matches Copied checkLiveness checkLiveness := by
  refine matches_get_bind ?_
  rintro w _ ⟨hgraph⟩
  dsimp only
  rw [Liveness.check_copied hgraph]
  cases Liveness.check w.graph with
  | success finished => exact (matches_note _ _).bind fun _ => matches_pure _
  | violated cycle => exact (matches_note _ _).bind fun _ => matches_pure _

end Workspace

end Dataflow
