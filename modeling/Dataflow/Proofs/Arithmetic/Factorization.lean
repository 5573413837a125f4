import Dataflow.Proofs.Arithmetic.Primality
import Dataflow.Proofs.Arithmetic.PrimeFactors
import Dataflow.Proofs.Arithmetic.TrialDivision
import Mathlib.Data.Nat.Factors

namespace Dataflow.Arithmetic

namespace PartialFactors

/-- What is listed as a prime is one. -/
def Proven (found : PartialFactors) : Prop :=
  ∀ p ∈ found.primes, p.Prime

private theorem proven_ofTrials {n : Nat} (hn : 0 < n) : (ofTrials n).Proven := by
  have hstart := Sifted.start hn
  have hdivisors (p : Nat) (hp : p ∈ (trialDivision smallTrials 2 n).1) : p.Prime :=
    prime_of_mem_trialDivision hstart hp
  intro p hp
  unfold ofTrials at hp
  dsimp only at hp
  split at hp
  · exact hdivisors p (List.mem_eraseDups.mp hp)
  split at hp
  · rename_i hne hlt
    obtain hp | hp := List.mem_append.mp (List.mem_eraseDups.mp hp)
    · exact hdivisors p hp
    · rw [List.mem_singleton.mp hp]
      exact (sifted_of_trialDivision hstart).prime_of_lt_sq hne hlt
  · exact hdivisors p (List.mem_eraseDups.mp hp)

variable {prove : Nat → Bool} (hprove : ∀ n, prove n = true → n.Prime)
include hprove

private theorem Proven.split {effort : Effort} {fuel : Nat} {numbers : List Nat}
    {found : PartialFactors}
    (h : found.Proven) : (split prove effort fuel numbers found).Proven := by
  induction fuel generalizing numbers found with
  | zero => exact h
  | succ fuel ih =>
    cases numbers with
    | nil => exact h
    | cons n numbers =>
      rw [PartialFactors.split]
      split
      · split
        · exact ih h
        split
        · rename_i hn
          exact ih (List.forall_mem_cons.mpr ⟨hprove n hn, h⟩)
        · exact ih h
      · split
        · exact ih h
        split
        · exact ih h
        · exact ih h

private theorem Proven.refine {effort : Effort} {found : PartialFactors} (h : found.Proven) :
    (found.refine prove effort).Proven :=
  Proven.split hprove h

end PartialFactors

section Climb

variable {prove : Nat → Nat → Bool} {n rank : Nat} {efforts : List Effort}
  {lower upper : PartialFactors}

private theorem one_lt_of_climb (h : climb prove n rank efforts lower upper = true) : 1 < n := by
  induction efforts generalizing rank lower upper with
  | nil => exact one_lt_of_certifies h
  | cons effort efforts ih =>
    rw [climb, Bool.or_eq_true, Bool.or_eq_true] at h
    obtain h | h | h := h
    · exact one_lt_of_certifies h
    · exact one_lt_of_certifies h
    · exact ih h

private theorem prime_of_climb (hprove : ∀ rank n, prove rank n = true → n.Prime)
    (hlower : lower.Proven) (hupper : upper.Proven)
    (h : climb prove n rank efforts lower upper = true) : n.Prime := by
  induction efforts generalizing rank lower upper with
  | nil => exact prime_of_certifies hlower hupper h
  | cons effort efforts ih =>
    have hlower' : (lower.refine (prove rank) effort).Proven := hlower.refine (hprove rank)
    rw [climb, Bool.or_eq_true, Bool.or_eq_true] at h
    obtain h | h | h := h
    · exact prime_of_certifies hlower hupper h
    · exact prime_of_certifies hlower' hupper h
    · exact ih hlower' (hupper.refine (hprove rank)) h

end Climb

private theorem prime_of_provesPrime {depth rank n : Nat} (h : provesPrime depth rank n = true) :
    n.Prime := by
  induction depth generalizing rank n with
  | zero => simp [provesPrime] at h
  | succ depth ih =>
    rw [provesPrime, Bool.or_eq_true] at h
    obtain h | h := h
    · have hn := one_lt_of_certifies h
      exact prime_of_certifies (PartialFactors.proven_ofTrials (by omega))
        (List.forall_mem_nil _) h
    · have hn := one_lt_of_climb h
      exact prime_of_climb (fun _ _ => ih) (PartialFactors.proven_ofTrials (by omega))
        (PartialFactors.proven_ofTrials (Nat.succ_pos n)) h

private theorem dvd_of_perfectPower? {n base exponent : Nat} (hexponent : exponent ≠ 0)
    (h : perfectPower? n = some (base, exponent)) : base ∣ n :=
  pow_of_perfectPower? h ▸ dvd_pow_self base hexponent

private theorem prime_of_mem_largeFactors {least depth n p : Nat} (h : Sifted least n)
    (hp : p ∈ largeFactors least depth n) : p.Prime := by
  induction depth generalizing n with
  | zero => exact prime_of_mem_fullDivision h hp
  | succ depth ih =>
    rw [largeFactors] at hp
    split at hp
    · cases hp
    split at hp
    · rename_i hne hlt
      rw [List.mem_singleton.mp hp]
      exact h.prime_of_lt_sq hne hlt
    split at hp
    · rename_i hproved
      rw [List.mem_singleton.mp hp]
      rw [isProvedPrime, Bool.and_eq_true] at hproved
      exact prime_of_provesPrime hproved.2
    cases hpower : perfectPower? n with
    | some found =>
      simp only [hpower, List.mem_flatMap, List.mem_replicate] at hp
      obtain ⟨q, hq, hexponent, rfl⟩ := hp
      exact ih (h.of_dvd (dvd_of_perfectPower? hexponent hpower)) hq
    | none =>
      cases hdivisor : anyDivisor? n with
      | some d =>
        have hdvd := dvd_of_anyDivisor? hdivisor
        simp only [hpower, hdivisor, List.mem_append] at hp
        obtain hp | hp := hp
        · exact ih (h.of_dvd hdvd) hp
        · exact ih (h.of_dvd (Nat.div_dvd_of_dvd hdvd)) hp
      | none =>
        simp only [hpower, hdivisor] at hp
        exact prime_of_mem_fullDivision h hp

theorem prime_of_mem_primeFactors {n p : Nat} (hn : 0 < n) (hp : p ∈ primeFactors n) :
    p.Prime := by
  have hstart := Sifted.start hn
  rw [primeFactors] at hp
  dsimp only at hp
  obtain hp | hp := List.mem_append.mp ((foldr_insertAscending_perm _).mem_iff.mp hp)
  · exact prime_of_mem_trialDivision hstart hp
  · exact prime_of_mem_largeFactors (sifted_of_trialDivision hstart) hp

/-- The factors of a product of primes are these primes. -/
theorem primeFactors_perm {primes : List Nat} (h : ∀ p ∈ primes, p.Prime) :
    (primeFactors primes.prod).Perm primes := by
  have hpos : 0 < primes.prod := List.prod_pos fun p hp => (h p hp).pos
  exact (Nat.primeFactorsList_unique (primeFactors_prod _) fun p hp =>
    prime_of_mem_primeFactors hpos hp).trans (Nat.primeFactorsList_unique rfl h).symm

end Dataflow.Arithmetic
