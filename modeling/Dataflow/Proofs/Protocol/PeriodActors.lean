import Dataflow.Proofs.Balance.Pendant
import Dataflow.Proofs.Protocol.Operations
import Dataflow.Proofs.Protocol.Sources

namespace Dataflow

open Dataflow.Action

/-- Every modifier has a period that can be read. -/
def Graph.PeriodsRead (g : Graph) : Prop :=
  ∀ m ∈ g.modifiers, (Monomial.parse m.period).isOk = true

instance (g : Graph) : Decidable g.PeriodsRead :=
  inferInstanceAs (Decidable (∀ m ∈ g.modifiers, _))

namespace Workspace

/-- A channel over which an actor that sets a parameter feeds a period actor, at the rates of the
modifier. -/
structure Supplies (w : Workspace) (m : Modifier) (c : Channel) : Prop where
  feeder_type : c.source.actor.type = m.type
  source_type : c.target.actor.type = periodType m.parameter
  output_rate : w.graph.rateText? c.source.port = some "1"
  input_rate : w.graph.rateText? c.target.port = some m.period
  lookup_eq : w.protocol.feeders.lookup c.target.actor.id = some c.source.actor

/-- What was added to a graph are period actors that hang on it. -/
structure Hanging (origin : Graph) (w : Workspace) : Prop where
  pendant : origin.Pendant w.graph
  supplies : ∀ c ∈ w.graph.channels, c ∈ origin.channels ∨ ∃ m ∈ origin.modifiers, w.Supplies m c

variable {origin : Graph} {w w' : Workspace} {m : Modifier}

private theorem Supplies.mono {c : Channel} (h : w.Supplies m c) (hgrows : w.graph.Grows w'.graph)
    (hfeeders : ∀ handle a, w.protocol.feeders.lookup handle = some a →
      w'.protocol.feeders.lookup handle = some a) : w'.Supplies m c :=
  ⟨h.feeder_type, h.source_type, hgrows.rateText? h.output_rate, hgrows.rateText? h.input_rate,
    hfeeders _ _ h.lookup_eq⟩

private theorem Hanging.addPort {type name : String} {direction : Direction} {rate : Option String}
    {p : Port} {g : Graph} (hw : Hanging origin w)
    (h : Graph.addPort type name direction rate w.graph = .ok p g) :
    Hanging origin { w with graph := g } := by
  have hgrown := Graph.addPort_grown.of_ok hw.pendant.grown h
  have hstep := (Graph.addPort_grown.of_ok ⟨hw.pendant.grown.1, .refl _⟩ h).2
  obtain ⟨-, -, rfl⟩ := Graph.addPort_eq_ok h
  refine ⟨hw.pendant.of_eq hgrown (Nat.le_succ _) rfl rfl, fun c hc => ?_⟩
  exact (hw.supplies c hc).imp_right fun ⟨m, hm, hsupplies⟩ =>
    ⟨m, hm, hsupplies.mono hstep fun _ _ => id⟩

/-- The rates of the ports that period actors are connected by are one and the periods. -/
theorem Hanging.ratesRead (h : Hanging origin w) (hrates : origin.RatesRead)
    (hperiods : origin.PeriodsRead) : w.graph.RatesRead := by
  intro c hc direction
  obtain hold | ⟨m, hm, hsupplies⟩ := h.supplies c hc
  · obtain ⟨rate, hrate⟩ := hrates c hold direction
    exact ⟨rate, h.pendant.grown.2.readRate hrate⟩
  · cases direction with
    | output =>
      obtain ⟨rate, hrate, -⟩ := Graph.unitRate_of_text hsupplies.output_rate
      exact ⟨rate, hrate⟩
    | input =>
      obtain ⟨period, hperiod⟩ := Except.isOk_iff.mp (hperiods m hm)
      refine ⟨period, ?_⟩
      rw [Graph.readRate]
      simp only [Channel.endpoint, hsupplies.input_rate, hperiod]

/-- A period actor fires once for each period of the actor that feeds it. -/
theorem Hanging.count_eq (h : Hanging origin w) (hg : origin.WellFormed) {table : Repetitions}
    (hsolved : Balance.Solved w.graph table) {a : Actor} (ha : a ∈ w.graph.actors)
    (hnew : a ∉ origin.actors) :
    ∃ m ∈ origin.modifiers, ∃ feeder ∈ w.graph.actors, ∃ period,
      a.type = periodType m.parameter ∧ feeder.type = m.type ∧
        w.protocol.feederOf a = .ok feeder ∧ Monomial.parse m.period = .ok period ∧
        (table.count feeder == table.count a * period) = true := by
  have hle : origin.nextHandle ≤ a.id :=
    Nat.not_lt.mp fun hlt => hnew (h.pendant.actor_mem a ha hlt)
  obtain ⟨c, hc, rfl⟩ := h.pendant.exists_channel a ha hle
  have hold : c ∉ origin.channels := fun hin => hnew (hg.joins c hin .input).actor_mem
  obtain ⟨m, hm, hsupplies⟩ := (h.supplies c hc).resolve_left hold
  obtain ⟨produced, consumed, hproduced, hconsumed, hbalance⟩ := hsolved.balances c hc
  obtain ⟨one, hone, hisOne⟩ := Graph.unitRate_of_text hsupplies.output_rate
  obtain rfl : produced = one := Except.ok.inj (hproduced.symm.trans hone)
  have hperiod : Monomial.parse m.period = .ok consumed := by
    rw [Graph.readRate] at hconsumed
    simpa only [hsupplies.input_rate] using hconsumed
  refine ⟨m, hm, c.source.actor, (h.pendant.grown.1.joins c hc .output).actor_mem, consumed,
    hsupplies.source_type, hsupplies.feeder_type, ?_, hperiod, Monomial.beq_iff.mpr fun key => ?_⟩
  · rw [Protocol.feederOf, hsupplies.lookup_eq]
  · have hpower := Monomial.beq_iff.mp hbalance key
    rw [Monomial.power_mul, Monomial.isOne_iff.mp hisOne key] at hpower
    exact hpower

end Workspace

end Dataflow
