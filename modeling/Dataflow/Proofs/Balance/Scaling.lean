import Dataflow.Proofs.Balance.Propagation

namespace Dataflow

/-- How often an actor fires, for the actors that the table has counts for. -/
def Repetitions.count (table : Repetitions) (a : Actor) : Monomial :=
  (table.entries.lookup a.id).getD .one

theorem Repetitions.mem_of_get_eq_ok {table : Repetitions} {a : Actor} {m : Monomial}
    (h : table.get a = .ok m) : (a.id, m) ∈ table.entries := by
  unfold get at h
  split at h
  · rename_i found hlookup
    cases h
    exact Assoc.mem_of_lookup_eq_some hlookup
  · cases h

theorem Repetitions.count_of_get_eq_ok {table : Repetitions} {a : Actor} {m : Monomial}
    (h : table.get a = .ok m) : table.count a = m := by
  unfold get at h
  unfold count
  split at h
  · rename_i found hlookup
    cases h
    rw [hlookup, Option.getD_some]
  · cases h

namespace Balance

variable {g : Graph} {fractions : Fractions} {key : String}

private theorem power_foldl_lcm (m : Monomial) :
    (fractions.foldl (fun m entry => m.lcm entry.2.denominator) m).power key = m.power key ∨
      ∃ entry ∈ fractions, entry.2.denominator.power key =
        (fractions.foldl (fun m entry => m.lcm entry.2.denominator) m).power key := by
  induction fractions generalizing m with
  | nil => exact .inl rfl
  | cons head rest ih =>
    rw [List.foldl_cons]
    obtain hsame | ⟨entry, hentry, hreached⟩ := ih (m.lcm head.2.denominator)
    · rw [Monomial.power_lcm] at hsame
      by_cases hle : head.2.denominator.power key ≤ m.power key
      · exact .inl (by omega)
      · exact .inr ⟨head, List.mem_cons_self, by omega⟩
    · exact .inr ⟨entry, List.mem_cons_of_mem _ hentry, hreached⟩

/-- The factor has a divisor only as often as some count lacks it. -/
theorem power_commonDenominator (hpos : 0 < (commonDenominator fractions).power key) :
    ∃ entry ∈ fractions,
      entry.2.denominator.power key = (commonDenominator fractions).power key := by
  obtain hzero | hreached := power_foldl_lcm .one
  · exact absurd hzero (Nat.ne_of_gt hpos)
  · exact hreached

theorem commonDenominator_positive (h : ∀ entry ∈ fractions, entry.2.Positive) :
    (commonDenominator fractions).Positive := by
  intro key hpower hnumeral
  obtain ⟨entry, hentry, heq⟩ := power_commonDenominator hpower
  exact (h entry hentry).2 key (Nat.lt_of_lt_of_eq hpower heq.symm) hnumeral

theorem wholeCount_eq_ok {factor n : Monomial} {a : Actor}
    (h : wholeCount fractions (.ofMonomial factor) a = .ok n) :
    (∀ key, (n.power key : Int) = exponents fractions a key + factor.power key) ∧
      ((∀ entry ∈ fractions, entry.2.Positive) → factor.Positive → n.Positive) := by
  obtain ⟨f, hf, hcollapse⟩ := Except.bind_eq_ok_iff.mp h
  have hlookup := fraction_eq_ok_iff.mp hf
  constructor
  · intro key
    rw [Ratio.collapse_eq_ok hcollapse, Ratio.exponent_mul, Ratio.exponent_ofMonomial,
      exponents_of_lookup hlookup]
  · intro hfractions hfactor
    have hf := hfractions _ (Assoc.mem_of_lookup_eq_some hlookup)
    have hproduct : (f * .ofMonomial factor).Positive := hf.mul (.ofMonomial hfactor)
    refine hproduct.1.anti fun key => ?_
    have hpower := Ratio.collapse_eq_ok hcollapse key
    rw [Ratio.power_numerator]
    omega

private theorem scale_entries {factor : Monomial} {actors : List Actor}
    {entries : List (Handle × Monomial)}
    (h : (actors.mapM fun a => do return (a.id, ← wholeCount fractions (.ofMonomial factor) a)) =
      .ok entries) :
    entries.map Prod.fst = actors.map (·.id) ∧ ∀ a ∈ actors, ∃ n,
      (a.id, n) ∈ entries ∧ wholeCount fractions (.ofMonomial factor) a = .ok n := by
  induction actors generalizing entries with
  | nil =>
    cases h
    simp
  | cons a actors ih =>
    rw [List.mapM_cons] at h
    obtain ⟨entry, hentry, h⟩ := Except.bind_eq_ok_iff.mp h
    obtain ⟨n, hn, hentry⟩ := Except.bind_eq_ok_iff.mp hentry
    obtain ⟨rest, hrest, h⟩ := Except.bind_eq_ok_iff.mp h
    cases hentry
    cases h
    obtain ⟨hkeys, hcounts⟩ := ih hrest
    refine ⟨by rw [List.map_cons, List.map_cons, hkeys], fun b hb => ?_⟩
    obtain rfl | hb := List.mem_cons.mp hb
    · exact ⟨n, List.mem_cons_self, hn⟩
    · obtain ⟨k, hk, hcount⟩ := hcounts b hb
      exact ⟨k, List.mem_cons_of_mem _ hk, hcount⟩

/-- A scaled table has one count for each actor of the graph. -/
theorem scale_eq_ok (hg : g.WellFormed) {table : Repetitions} (h : scale g fractions = .ok table) :
    table.entries.map Prod.fst = g.actors.map (·.id) ∧ ∀ a ∈ g.actors,
      table.get a = .ok (table.count a) ∧
      wholeCount fractions (.ofMonomial (commonDenominator fractions)) a = .ok (table.count a) := by
  obtain ⟨entries, hentries, h⟩ := Except.bind_eq_ok_iff.mp h
  cases h
  obtain ⟨hkeys, hcounts⟩ := scale_entries hentries
  refine ⟨hkeys, fun a ha => ?_⟩
  obtain ⟨n, hn, hwhole⟩ := hcounts a ha
  have hlookup := Assoc.lookup_eq_some_of_mem (hkeys ▸ hg.nodup_actor_ids) hn
  have hcount : Repetitions.count ⟨entries⟩ a = n := by rw [Repetitions.count, hlookup]; rfl
  rw [hcount]
  exact ⟨by simp only [Repetitions.get, hlookup], hwhole⟩

end Balance

end Dataflow
