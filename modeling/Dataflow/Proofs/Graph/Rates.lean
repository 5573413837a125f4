import Dataflow.Proofs.Graph.Change
import Dataflow.Rates

namespace Dataflow.Graph

/-- The port of a handle has a rate, and this is its text. -/
def HasRate (handle : Handle) (text : String) (g : Graph) : Prop :=
  g.rates.lookup handle = some text

/-- The rate of a port, as the text of the rate reads. -/
def readRate (g : Graph) (p : Port) : Except Failure Monomial :=
  match g.rateText? p with
  | some text => Monomial.parse text
  | none => .error (.rateMissing p.text)

/-- The parameters of the rate of a port. -/
def rateParameters (g : Graph) (p : Port) : List String :=
  match g.readRate p with
  | .ok rate => rate.parameters
  | .error _ => []

theorem mem_rateParameters_iff {g : Graph} {p : Port} {parameter : String} :
    parameter ∈ g.rateParameters p ↔
      ∃ rate, g.readRate p = .ok rate ∧ parameter ∈ rate.parameters := by
  unfold rateParameters
  cases g.readRate p <;> simp

/-- The rate of a port is one. -/
def UnitRate (g : Graph) (p : Port) : Prop :=
  ∃ rate, g.readRate p = .ok rate ∧ rate.isOne = true

theorem unitRate_of_text {g : Graph} {p : Port} (h : g.rateText? p = some "1") : g.UnitRate p := by
  have hone : (Monomial.parse "1").toOption.any (·.isOne) = true := by decide +kernel
  rw [UnitRate, readRate, h]
  cases hparse : Monomial.parse "1" with
  | ok rate => exact ⟨rate, hparse, by simpa [hparse, Except.toOption] using hone⟩
  | error e => simp [hparse, Except.toOption] at hone

theorem HasRate.append {g : Graph} {handle : Handle} {text : String} (hg : HasRate handle text g)
    (more : List (Handle × String)) : (g.rates ++ more).lookup handle = some text := by
  rw [List.lookup_append, hg, Option.some_or]

/-- No step changes a rate, not even the removal of the actors that have the port. -/
theorem Change.hasRate {g g' : Graph} {handle : Handle} {text : String} (h : Change g g')
    (hg : HasRate handle text g) : HasRate handle text g' := by
  cases h with
  | useHandle => exact hg
  | addActor _ _ => exact hg
  | addPort _ _ rate => exact hg.append _
  | setRate _ _ rate => exact hg.append _
  | addChannel _ _ _ => exact hg
  | addModifier _ => exact hg
  | removeChannel id => exact hg
  | removeActor a =>
    show HasRate handle text ((g.channelsOf a).foldl (fun g c => g.removeChannel c.id) g)
    rw [foldl_removeChannel]
    exact hg
  | copy hclone =>
    obtain ⟨_, _, rfl⟩ := clone_eq_ok hclone
    exact hg

/-- No step takes a port away. -/
theorem Change.mem_ports {g g' : Graph} {p : Port} (h : Change g g') (hp : p ∈ g.ports) :
    p ∈ g'.ports := by
  cases h with
  | addPort _ _ _ => exact List.mem_append_left _ hp
  | removeActor a =>
    show p ∈ ((g.channelsOf a).foldl (fun g c => g.removeChannel c.id) g).ports
    rw [foldl_removeChannel]
    exact hp
  | copy hclone =>
    obtain ⟨_, _, rfl⟩ := clone_eq_ok hclone
    exact hp
  | _ => exact hp

theorem Changes.mem_ports {g g' : Graph} {p : Port} (h : Changes g g') (hp : p ∈ g.ports) :
    p ∈ g'.ports :=
  h.keeps (P := (p ∈ ·.ports)) (fun hstep => hstep.mem_ports) hp

theorem Changes.rateText?_eq {g g' : Graph} {p : Port} {text : String} (h : Changes g g')
    (hrate : g.rateText? p = some text) : g'.rateText? p = some text :=
  h.keeps (P := HasRate p.id text) (fun hstep => hstep.hasRate) hrate

end Dataflow.Graph
