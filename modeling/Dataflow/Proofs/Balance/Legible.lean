import Dataflow.Proofs.Balance.Minimality
import Dataflow.Proofs.Monomial.RoundTrip

namespace Dataflow

theorem Graph.legible_of_readRate {g : Graph} {p : Port} {m : Monomial}
    (h : g.readRate p = .ok m) : m.Legible := by
  unfold readRate at h
  split at h
  · exact Monomial.legible_of_parse h
  · cases h

/-- A rate that can be read is the rate of a port of the graph. -/
theorem Graph.WellFormed.exists_port_of_readRate {g : Graph} {p : Port} {rate : Monomial}
    (hg : g.WellFormed) (h : g.readRate p = .ok rate) : ∃ q ∈ g.ports, g.readRate q = .ok rate := by
  unfold readRate at h
  split at h
  · rename_i text htext
    obtain ⟨q, hq, hid⟩ := List.mem_map.mp (hg.rates_at_ports _ (Assoc.mem_of_lookup_eq_some htext))
    refine ⟨q, hq, ?_⟩
    rw [readRate, rateText?, hid, ← rateText?, htext]
    exact h
  · cases h

namespace Balance

variable {g : Graph} {start : Actor} {fractions : Fractions} {table : Repetitions}

private theorem balances_erase {count : Actor → Monomial} {key : String} {c : Channel}
    (hrates : ∀ p m, g.readRate p = .ok m → m.power key = 0) (h : Balances g count c) :
    Balances g (fun a => ⟨(count a).factors.erase key⟩) c := by
  obtain ⟨produced, consumed, hproduced, hconsumed, heq⟩ := h
  refine ⟨produced, consumed, hproduced, hconsumed, Monomial.beq_iff.mpr fun k => ?_⟩
  have hpower := Monomial.beq_iff.mp heq k
  have herase (m : Monomial) : Monomial.power ⟨m.factors.erase key⟩ k =
      if k = key then 0 else m.power k := Factors.power_erase m.factors key k
  rw [Monomial.power_mul, Monomial.power_mul] at hpower ⊢
  rw [herase, herase]
  split
  · rename_i hkey
    rw [hkey, hrates _ _ hproduced, hrates _ _ hconsumed]
  · exact hpower

private theorem Spread.power_eq_zero (hg : g.WellFormed) (h : Spread g start fractions)
    (hscale : scale g fractions = .ok table) (hsolved : Solved g table) {key : String}
    (hrates : ∀ p m, g.readRate p = .ok m → m.power key = 0) {a : Actor} (ha : a ∈ g.actors) :
    (table.count a).power key = 0 := by
  obtain ⟨factor, hfactor⟩ := h.exists_factor hg hscale
    fun c hc => balances_erase hrates (hsolved.balances c hc)
  have hpower := Monomial.beq_iff.mp (hfactor a ha) key
  have herase : Monomial.power ⟨(table.count a).factors.erase key⟩ key = 0 :=
    (Factors.power_erase _ key key).trans (if_pos rfl)
  rw [Monomial.power_mul, herase] at hpower
  omega

private theorem Found.power_eq_zero (hg : g.WellFormed) (h : Found g table) {key : String}
    (hrates : ∀ p m, g.readRate p = .ok m → m.power key = 0) {a : Actor} (ha : a ∈ g.actors) :
    (table.count a).power key = 0 := by
  obtain ⟨hactors, -⟩ | ⟨first, -, fractions, hspread, hchannels, hscale⟩ := h.scaled hg
  · rw [hactors] at ha
    cases ha
  · exact hspread.power_eq_zero hg hscale (hspread.solved hg hchannels hscale) hrates ha

/-- What divides a count divides the rate of some port of the graph. -/
theorem Found.exists_port (hg : g.WellFormed) (h : Found g table) {key : String} {a : Actor}
    (ha : a ∈ g.actors) (hkey : 0 < (table.count a).power key) :
    ∃ p ∈ g.ports, ∃ rate, g.readRate p = .ok rate ∧ 0 < rate.power key := by
  by_contra hnone
  refine Nat.ne_of_gt hkey (h.power_eq_zero hg (fun p rate hrate => ?_) ha)
  by_contra hpower
  obtain ⟨q, hq, hread⟩ := hg.exists_port_of_readRate hrate
  exact hnone ⟨q, hq, rate, hread, Nat.pos_of_ne_zero hpower⟩

theorem Found.legible (hg : g.WellFormed) (h : Found g table) {a : Actor} (ha : a ∈ g.actors) :
    (table.count a).Legible := by
  intro key hpower
  obtain ⟨p, -, rate, hrate, hkey⟩ := h.exists_port hg ha hpower
  exact g.legible_of_readRate hrate key hkey

end Balance

end Dataflow
