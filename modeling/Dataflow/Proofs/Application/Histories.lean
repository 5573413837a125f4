import Dataflow.Proofs.Analysis.Graphs
import Dataflow.Proofs.Application.Connection
import Dataflow.Proofs.Protocol.Histories

namespace Dataflow.Application

open Dataflow.Action

/-- A call to an application. -/
inductive Call where
  | actor (name : String) (type : Option String) (execTime : Int)
  | port (type name direction : String) (rate : Option String)
  | connect (source target : String) (sourceRate targetRate : Option String) (initialTokens : Int)
  | modify (actor parameter period kind : String)
  | analyze (config : Config)

/-- What a call leaves of an application, whether it succeeds or is refused. -/
def Call.after (app : Application) : Call → Application
  | actor name type execTime => (addActor name type execTime).after app
  | port type name direction rate => (addPort type name direction rate).after app
  | connect source target sourceRate targetRate initialTokens =>
    (Application.connect source target sourceRate targetRate initialTokens).after app
  | modify name parameter period kind => (modifyParameter name parameter period kind).after app
  | analyze config => (Application.analyze config).after app

/-- What a history of calls leaves of an application. -/
def replay (app : Application) (calls : List Call) : Application :=
  calls.foldl Call.after app

section Steps

variable {P : Graph → Prop} {origin : Graph} {α : Type}

private theorem keeps_onGraph {action : Action Graph α} (h : action.Keeps P) :
    (onGraph action).Keeps fun app => P app.graph :=
  h.within (fun _ => id) fun _ _ _ => id

private theorem keeps_note {level : Level} {message : String} :
    (note level message).Keeps fun app => P app.graph :=
  keeps_modify fun _ => id

private theorem declarePort_changes {place : String × String} {direction : Direction}
    {rate : Option String} : (declarePort place direction rate).Keeps (Graph.Changes origin) := by
  intro g hg
  obtain ⟨g', hok, hdeclared⟩ | ⟨e, herror, -⟩ := declarePort_cases g place direction rate
  · rw [after_of_ok hok]
    exact hg.trans hdeclared.changes
  · rwa [after_of_error herror]

private theorem addPort_changes {type name direction : String} {rate : Option String} :
    (addPort type name direction rate).Keeps fun app => Graph.Changes origin app.graph := by
  unfold addPort
  generalize Text.uppercase direction = word
  dsimp only
  cases Direction.ofWord? word with
  | none => exact keeps_throw _
  | some direction => exact keeps_onGraph Graph.addPort_changes

private theorem connect_changes {source target : String} {sourceRate targetRate : Option String}
    {initialTokens : Int} :
    (connect source target sourceRate targetRate initialTokens).Keeps
      fun app => Graph.Changes origin app.graph := by
  refine (keeps_ofExcept _).bind fun _ => (keeps_ofExcept _).bind fun _ => ?_
  refine (keeps_onGraph declarePort_changes).bind fun _ => ?_
  refine (keeps_onGraph declarePort_changes).bind fun _ => ?_
  refine (keeps_onGraph Graph.addChannel_changes).bind fun _ => ?_
  exact keeps_note.bind fun _ => keeps_pure _

private theorem modifyParameter_changes {actor parameter period kind : String} :
    (modifyParameter actor parameter period kind).Keeps
      fun app => Graph.Changes origin app.graph :=
  keeps_read fun _ => (keeps_ofExcept _).bind fun _ => keeps_onGraph Graph.addModifier_changes

private theorem analyze_changes {config : Config} :
    (analyze config).Keeps fun app => Graph.Changes origin app.graph := by
  have hrun := Analyzer.keeps_run (P := Graph.Changes origin) Graph.lasting_changes
  refine Keeps.bind (hrun.within (fun _ => id) fun _ _ _ => id) fun report => ?_
  refine Keeps.bind (keeps_modify fun _ => id) fun _ => keeps_read fun _ => ?_
  exact (keeps_ofExcept _).bind fun _ => keeps_note.bind fun _ => keeps_pure _

/-- Every call changes the graph of an application by steps, each of which was allowed when it was
made. -/
theorem Call.changes (call : Call) (app : Application) :
    Graph.Changes app.graph (call.after app).graph := by
  cases call with
  | actor name type execTime => exact keeps_onGraph Graph.addActor_changes app .refl
  | port type name direction rate => exact addPort_changes app .refl
  | connect source target sourceRate targetRate initialTokens => exact connect_changes app .refl
  | modify name parameter period kind => exact modifyParameter_changes app .refl
  | analyze config => exact analyze_changes app .refl

private theorem replay_changes (app : Application) (calls : List Call) :
    Graph.Changes app.graph (replay app calls).graph := by
  induction calls generalizing app with
  | nil => exact .refl
  | cons call calls ih => exact (call.changes app).trans (ih (call.after app))

end Steps

/-- The applications that some sequence of calls, successful or refused, leaves behind. -/
def Reachable (app : Application) : Prop :=
  ∃ name calls, app = replay (.new name) calls

private theorem Reachable.wellFormed {app : Application} (h : app.Reachable) :
    app.graph.WellFormed := by
  obtain ⟨name, calls, rfl⟩ := h
  exact (replay_changes (.new name) calls).wellFormed (.empty name)

/-- No later call changes the rate of a port. The ends of a channel that `connect` returns have the
rates that were given, from then on. A rate that differs from the one that a port has is refused,
and then no channel is added. -/
theorem connections_keep_rates {app : Application} (h : app.Reachable) (later : List Call) :
    (∀ p ∈ app.graph.ports, ∀ rate ∈ app.graph.rateText? p,
      p ∈ (replay app later).graph.ports ∧ (replay app later).graph.rateText? p = some rate) ∧
    ∀ (source target : String) (sourceRate targetRate : Option String) (initialTokens : Int),
      (∀ c next, connect source target sourceRate targetRate initialTokens app = .ok c next →
        c ∈ next.graph.channels ∧
        (∀ rate ∈ sourceRate, next.graph.rateText? c.source.port = some rate ∧
          (replay next later).graph.rateText? c.source.port = some rate) ∧
        ∀ rate ∈ targetRate, next.graph.rateText? c.target.port = some rate ∧
          (replay next later).graph.rateText? c.target.port = some rate) ∧
      (Conflicts app.graph source sourceRate ∨ Conflicts app.graph target targetRate →
        ∃ e next, connect source target sourceRate targetRate initialTokens app = .error e next ∧
          next.graph.channels = app.graph.channels ∧
          (IsReference source ∧ IsReference target ∧ e.isStructural = true ∨
            ∃ text ∈ [source, target], ¬ IsReference text ∧ e = .malformedEndpoint text)) := by
  refine ⟨fun p hp rate hrate => ?_, fun source target sourceRate targetRate initialTokens =>
    ⟨fun c next hconnect => ?_, fun hconflicts => ?_⟩⟩
  · have hlater := replay_changes app later
    exact ⟨hlater.mem_ports hp, hlater.rateText?_eq hrate⟩
  · obtain ⟨-, -, hmem, ⟨_, -, -, hsource⟩, ⟨_, -, -, htarget⟩⟩ :=
      connect_eq_ok h.wellFormed hconnect
    have hlater := replay_changes next later
    exact ⟨hmem,
      fun rate hrate => ⟨hsource rate hrate, hlater.rateText?_eq (hsource rate hrate)⟩,
      fun rate hrate => ⟨htarget rate hrate, hlater.rateText?_eq (htarget rate hrate)⟩⟩
  · obtain ⟨e, next, herror⟩ := connect_of_conflicts h.wellFormed hconflicts
    exact ⟨e, next, herror, connect_eq_error herror⟩

/-- Two actors, of which one has a port already that gives one token. -/
def pairConnected : Application :=
  replay (.new none)
    [ .actor "a" none 0, .actor "b" none 0,
      .connect "a.out" "b.in" (some "1") (some "1") 0 ]

private theorem pairConnected_conflicts : Conflicts pairConnected.graph "a.out" (some "2") := by
  have hplace : splitEndpoint "a.out" = .ok ("a", "out") :=
    splitEndpoint_eq_ok_iff.mpr (by decide +kernel)
  have hrate : pairConnected.graph.rateText? ⟨2, "a", "out", .output⟩ = some "1" := by
    decide +kernel
  refine ⟨("a", "out"), ⟨2, "a", "out", .output⟩, hplace, ⟨?_, ?_, rfl⟩, "2", rfl, "1", hrate, ?_⟩
  · decide +kernel
  · exact ⟨⟨0, "a", "a", 0, false⟩, by decide +kernel, rfl, rfl⟩
  · decide

theorem connections_keep_rates_pairConnected :
    pairConnected.Reachable ∧ Conflicts pairConnected.graph "a.out" (some "2") ∧
      ∃ e next, connect "a.out" "b.other" (some "2") none 0 pairConnected = .error e next ∧
        next.graph.channels = pairConnected.graph.channels ∧ e.isStructural = true := by
  have hreachable : pairConnected.Reachable := ⟨none, _, rfl⟩
  obtain ⟨-, hconnections⟩ := connections_keep_rates hreachable []
  obtain ⟨-, hrefused⟩ := hconnections "a.out" "b.other" (some "2") none 0
  obtain ⟨e, next, herror, hchannels, hwhy⟩ := hrefused (.inl pairConnected_conflicts)
  refine ⟨hreachable, pairConnected_conflicts, e, next, herror, hchannels, ?_⟩
  have hsource : IsReference "a.out" := ⟨"a", "out", by decide +kernel⟩
  have htarget : IsReference "b.other" := ⟨"b", "other", by decide +kernel⟩
  obtain ⟨-, -, hstructural⟩ | ⟨text, htext, hbad, -⟩ := hwhy
  · exact hstructural
  · simp only [List.mem_cons, List.not_mem_nil, or_false] at htext
    obtain rfl | rfl := htext
    · exact absurd hsource hbad
    · exact absurd htarget hbad

/-- `connect` fails on a malformed reference before it compares the rates. -/
theorem pairConnected_malformed :
    pairConnected.Reachable ∧ Conflicts pairConnected.graph "a.out" (some "2") ∧
      connect "a.out" "b" (some "2") none 0 pairConnected =
        .error (.malformedEndpoint "b") pairConnected ∧
      (Failure.malformedEndpoint "b").isStructural = false :=
  ⟨⟨none, _, rfl⟩, pairConnected_conflicts, rfl, rfl⟩

end Dataflow.Application
