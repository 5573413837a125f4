import Dataflow.Proofs.Balance.Soundness

namespace Dataflow

/-- What all monomials of a list have in common. -/
def Monomial.commonDivisor : List Monomial → Monomial
  | [] => .one
  | m :: rest => rest.foldl Monomial.gcd m

private theorem Monomial.power_foldl_gcd_le (key : String) (m : Monomial) (rest : List Monomial) :
    ∀ n ∈ m :: rest, (rest.foldl Monomial.gcd m).power key ≤ n.power key := by
  induction rest generalizing m with
  | nil => simp
  | cons k rest ih =>
    intro n hn
    have hle := ih (m.gcd k)
    have hfirst := hle (m.gcd k) List.mem_cons_self
    rw [power_gcd] at hfirst
    rw [List.foldl_cons]
    obtain rfl | hn := List.mem_cons.mp hn
    · omega
    · obtain rfl | hn := List.mem_cons.mp hn
      · omega
      · exact hle n (List.mem_cons_of_mem _ hn)

private theorem Monomial.power_commonDivisor_le {key : String} {m : Monomial}
    {monomials : List Monomial}
    (hm : m ∈ monomials) : (commonDivisor monomials).power key ≤ m.power key := by
  cases monomials with
  | nil => simp at hm
  | cons n rest => exact power_foldl_gcd_le key n rest m hm

namespace Balance

variable {g : Graph} {start : Actor} {fractions : Fractions} {table : Repetitions}

/-- Every divisor is missing from some count: from the start's, unless it was most lacking elsewhere
and scaled in just as often as that. -/
theorem Spread.exists_power_eq_zero (hg : g.WellFormed) (h : Spread g start fractions)
    (hscale : scale g fractions = .ok table) (key : String) :
    ∃ a ∈ g.actors, (table.count a).power key = 0 := by
  by_cases hzero : (commonDenominator fractions).power key = 0
  · -- Nothing was scaled in, so the start has as little of the divisor as at the beginning.
    have hstart := h.tree.reached_subset hg List.mem_cons_self
    have hpower := power_count_of_scale hg hscale hstart key
    rw [h.exponents_start, hzero] at hpower
    exact ⟨start, hstart, by omega⟩
  · -- The actor that lacked the divisor most has got just enough.
    obtain ⟨⟨handle, f⟩, hentry, hdenominator⟩ :=
      power_commonDenominator (Nat.pos_of_ne_zero hzero)
    have hhandle : handle ∈ (reached start (spanningTree g start)).map (·.id) :=
      h.keys_eq ▸ List.mem_map_of_mem hentry
    obtain ⟨a, ha, rfl⟩ := List.mem_map.mp hhandle
    have hmem := h.tree.reached_subset hg ha
    have hnodup : (fractions.map Prod.fst).Nodup := h.keys_eq ▸ h.tree.nodup_reached_ids hg
    have hexponent := exponents_of_lookup (Assoc.lookup_eq_some_of_mem hnodup hentry) key
    have hpower := power_count_of_scale hg hscale hmem key
    rw [Ratio.power_denominator] at hdenominator
    dsimp only at hdenominator hpower
    exact ⟨a, hmem, by omega⟩

/-- Counts that balance the graph exceed those of the table everywhere as they do at the start. -/
theorem Spread.sub_count_eq (hg : g.WellFormed) (h : Spread g start fractions)
    (hscale : scale g fractions = .ok table) {count : Actor → Monomial}
    (hcount : ∀ c ∈ g.channels, Balances g count c) {a : Actor} (ha : a ∈ g.actors) (key : String) :
    ((count a).power key : Int) - (table.count a).power key =
      (count start).power key - (table.count start).power key := by
  have hbalanced : ∀ link ∈ spanningTree g start,
      Conserves g (fun a key => (count a).power key) link.channel :=
    fun link hlink => balances_iff.mp (hcount _ (h.tree.channel_mem link hlink))
  have hsub := h.tree.sub_eq hbalanced h.conserves key a (h.mem_reached a ha)
  have hstart := h.tree.reached_subset hg List.mem_cons_self
  have hpower := power_count_of_scale hg hscale ha key
  have hpowerStart := power_count_of_scale hg hscale hstart key
  omega

theorem Spread.exists_factor (hg : g.WellFormed) (h : Spread g start fractions)
    (hscale : scale g fractions = .ok table) {count : Actor → Monomial}
    (hcount : ∀ c ∈ g.channels, Balances g count c) :
    ∃ factor, ∀ a ∈ g.actors, (count a == table.count a * factor) = true := by
  refine ⟨(count start).strike (table.count start), fun a ha => Monomial.beq_iff.mpr fun key => ?_⟩
  -- Where the table's count has none of the divisor, the other counts have at least none.
  obtain ⟨b, hb, hzero⟩ := h.exists_power_eq_zero hg hscale key
  have hsub := h.sub_count_eq hg hscale hcount ha key
  have hsubZero := h.sub_count_eq hg hscale hcount hb key
  rw [Monomial.power_mul, Monomial.power_strike]
  omega

theorem Found.exists_factor (hg : g.WellFormed) (h : Found g table) {count : Actor → Monomial}
    (hcount : ∀ c ∈ g.channels, Balances g count c) :
    ∃ factor, ∀ a ∈ g.actors, (count a == table.count a * factor) = true := by
  obtain ⟨hactors, -⟩ | ⟨first, -, fractions, hspread, -, hscale⟩ := h.scaled hg
  · exact ⟨.one, by simp [hactors]⟩
  · exact hspread.exists_factor hg hscale hcount

private theorem factor_unique {a : Actor} {count : Actor → Monomial} {factor other : Monomial}
    (h : (count a == table.count a * factor) = true)
    (hother : (count a == table.count a * other) = true) : (other == factor) = true := by
  refine Monomial.beq_iff.mpr fun key => ?_
  have hpower := Monomial.beq_iff.mp h key
  have hpowerOther := Monomial.beq_iff.mp hother key
  rw [Monomial.power_mul] at hpower hpowerOther
  omega

private theorem Spread.commonDivisor_isOne (hg : g.WellFormed) (h : Spread g start fractions)
    (hscale : scale g fractions = .ok table) :
    (Monomial.commonDivisor (table.entries.map Prod.snd)).isOne = true := by
  refine Monomial.isOne_iff.mpr fun key => ?_
  obtain ⟨a, ha, hzero⟩ := h.exists_power_eq_zero hg hscale key
  have hmem : table.count a ∈ table.entries.map Prod.snd := by
    obtain ⟨-, hcounts⟩ := scale_eq_ok hg hscale
    exact List.mem_map_of_mem (Repetitions.mem_of_get_eq_ok (hcounts a ha).1)
  have hle : (Monomial.commonDivisor (table.entries.map Prod.snd)).power key ≤
      (table.count a).power key := Monomial.power_commonDivisor_le hmem
  omega

private theorem solve_scaled {w w' : Workspace} {start : Option Actor}
    (hw : w.rates.UsedWith w.graph)
    (hstart : ∀ a ∈ start, a ∈ w.graph.actors) (hne : w.graph.actors ≠ [])
    (h : Workspace.solve start w = .ok (.success table) w') :
    ∃ first ∈ w.graph.actors, ∃ fractions,
      Spread w.graph first fractions ∧ scale w.graph fractions = .ok table := by
  obtain ⟨cache, hsolve⟩ := Workspace.solve_eq_ok h
  have hfound : Found w.graph table := ⟨start, w.rates, cache, hstart, hw.agrees, hsolve⟩
  obtain ⟨hactors, -⟩ | ⟨first, hfirst, fractions, hspread, -, hscale⟩ :=
    hfound.scaled hw.reachable.wellFormed
  · exact absurd hactors hne
  · exact ⟨first, hfirst, fractions, hspread, hscale⟩

/-- The counts of a table that `Workspace.solve` returns for a graph with actors have no common
divisor but one. Any other counts that balance every channel are the multiples of them by one
factor, and the factor is unique. -/
theorem solve_least {w w' : Workspace} {start : Option Actor} {table : Repetitions}
    (hw : w.rates.UsedWith w.graph) (hstart : ∀ a ∈ start, a ∈ w.graph.actors)
    (hne : w.graph.actors ≠ []) (h : Workspace.solve start w = .ok (.success table) w') :
    (∀ a ∈ w.graph.actors, table.get a = .ok (table.count a)) ∧
      (Monomial.commonDivisor (table.entries.map Prod.snd)).isOne = true ∧
      ∀ count : Actor → Monomial, (∀ c ∈ w.graph.channels, Balances w.graph count c) →
        ∃ factor, (∀ a ∈ w.graph.actors, (count a == table.count a * factor) = true) ∧
          ∀ other, (∀ a ∈ w.graph.actors, (count a == table.count a * other) = true) →
            (other == factor) = true := by
  have hg := hw.reachable.wellFormed
  obtain ⟨first, hfirst, fractions, hspread, hscale⟩ := solve_scaled hw hstart hne h
  refine ⟨(solve_solved hw hstart h).get_eq, hspread.commonDivisor_isOne hg hscale,
    fun count hcount => ?_⟩
  obtain ⟨factor, hfactor⟩ := hspread.exists_factor hg hscale hcount
  exact ⟨factor, hfactor,
    fun other hother => factor_unique (hfactor first hfirst) (hother first hfirst)⟩

theorem solve_least_parallel :
    ∃ table w', Workspace.solve none ⟨parallel, .empty, .empty, []⟩ = .ok (.success table) w' ∧
      parallel.actors ≠ [] ∧
      (∀ a ∈ parallel.actors, table.get a = .ok (table.count a)) ∧
      (Monomial.commonDivisor (table.entries.map Prod.snd)).isOne = true ∧
      ∀ count : Actor → Monomial, (∀ c ∈ parallel.channels, Balances parallel count c) →
        ∃ factor, (∀ a ∈ parallel.actors, (count a == table.count a * factor) = true) ∧
          ∀ other, (∀ a ∈ parallel.actors, (count a == table.count a * other) = true) →
            (other == factor) = true := by
  have hused : RateCache.empty.UsedWith parallel := (RateCache.UsedWith.start none).performAll _
  have hne : parallel.actors ≠ [] := by decide +kernel
  have hsuccess : (Workspace.verdict? ⟨parallel, .empty, .empty, []⟩ none).any (·.isSuccess) =
      true := by
    decide +kernel
  obtain ⟨verdict, w', hrun, hverdict⟩ := Workspace.exists_of_verdict? hsuccess
  cases verdict with
  | violated _ => cases hverdict
  | success table => exact ⟨table, w', hrun, hne, solve_least hused (by simp) hne hrun⟩

end Balance

end Dataflow
