import Dataflow.Proofs.Balance.Failures

namespace Dataflow

/-- Every two actors are joined. -/
def Graph.Connected (g : Graph) : Prop :=
  ∀ a ∈ g.actors, ∀ b ∈ g.actors, Joined g a b

namespace Workspace

/-- Solving from the start ends because the graph is not connected. -/
def Disconnects (start : Option Actor) (w : Workspace) : Prop :=
  ∃ actors reached w', solve start w = .error (.disconnected actors reached) w'

/-- Solving from the start ends because a count or a ratio is too large to be written. -/
def Overflows (start : Option Actor) (w : Workspace) : Prop :=
  ∃ e w', solve start w = .error e w' ∧ w.graph.TooLarge e

/-- Solving from the start ends with the verdict. -/
def Yields (start : Option Actor) (w : Workspace) (verdict : Verdict Repetitions Inconsistency) :
    Prop :=
  ∃ w', solve start w = .ok verdict w'

/-- The solver has the verdict, and `Workspace.solve` returns it unless one of its numbers is too
large. -/
def Finds (start : Option Actor) (w : Workspace) (verdict : Verdict Repetitions Inconsistency) :
    Prop :=
  (∃ cache, Balance.solve w.graph start w.rates = .ok verdict cache) ∧
    (w.Yields start verdict ∨ w.Overflows start)

variable {w w' : Workspace} {start start' : Option Actor}

/-- Where the rates can be read, the solver comes to a verdict unless the graph is not connected. -/
theorem solve_cases (hw : w.rates.UsedWith w.graph) (hrates : w.graph.RatesRead)
    (hstart : ∀ a ∈ start, a ∈ w.graph.actors) :
    w.Disconnects start ∧ ¬ w.graph.Connected ∨
      w.graph.Connected ∧ ∃ verdict, w.Finds start verdict := by
  have hg := hw.reachable.wellFormed
  cases h : solve start w with
  | ok verdict w' =>
    obtain ⟨cache, hsolve⟩ := solve_eq_ok h
    exact .inr ⟨Balance.joined_of_solve hg hw.agrees hstart hsolve, verdict, ⟨cache, hsolve⟩,
      .inl ⟨w', h⟩⟩
  | error e w' =>
    obtain ⟨first, hfirst, hstuck⟩ | ⟨hlarge, verdict, cache, hsolve⟩ :=
      solve_eq_error hg hw.agrees hstart h
    · obtain hfails | ⟨count, rfl, hnot⟩ := hstuck
      · exact absurd hfails (hrates.not_rateFails e)
      · exact .inl ⟨⟨_, _, w', h⟩, fun hconnected => hnot (hconnected first hfirst)⟩
    · exact .inr ⟨Balance.joined_of_solve hg hw.agrees hstart hsolve, verdict, ⟨cache, hsolve⟩,
        .inr ⟨e, w', h, hlarge⟩⟩

end Workspace

end Dataflow
