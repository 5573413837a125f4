import Dataflow.Arithmetic.PrimeFactors
import Mathlib.Algebra.BigOperators.Group.List.Lemmas

namespace Dataflow.Arithmetic

private theorem trialDivision_prod (fuel k n : Nat) :
    (trialDivision fuel k n).1.prod * (trialDivision fuel k n).2.1 = n := by
  induction fuel generalizing k n with
  | zero => simp [trialDivision]
  | succ fuel ih =>
    rw [trialDivision]
    split
    · simp
    · split
      · rename_i hmod
        rw [List.prod_cons, Nat.mul_assoc, ih]
        exact Nat.mul_div_cancel' (Nat.dvd_of_mod_eq_zero hmod)
      · exact ih _ _

private theorem fullDivision_prod (k n : Nat) : (fullDivision k n).prod = n := by
  have hprod := trialDivision_prod n k n
  rw [fullDivision]
  dsimp only
  split
  · rename_i hone
    rwa [hone, Nat.mul_one] at hprod
  · rwa [List.prod_append, List.prod_singleton]

theorem pow_of_perfectPower? {n base exponent : Nat} (h : perfectPower? n = some (base, exponent)) :
    base ^ exponent = n := by
  obtain ⟨k, -, hk⟩ := List.exists_of_findSome?_eq_some h
  dsimp only at hk
  split at hk
  · rename_i hpow
    simp only [Option.some.injEq, Prod.mk.injEq] at hk
    rw [← hk.1, ← hk.2]
    exact hpow
  · cases hk

private theorem isProperDivisor_of_filter {n d : Nat} {found : Option Nat}
    (h : found.filter (isProperDivisor n) = some d) : isProperDivisor n d = true :=
  (Option.filter_eq_some_iff.mp h).2

private theorem Effort.isProperDivisor_of_properDivisor? {effort : Effort} {n d : Nat}
    (h : effort.properDivisor? n = some d) : isProperDivisor n d = true := by
  unfold properDivisor? at h
  split at h
  · rename_i found hcycle
    cases h
    exact isProperDivisor_of_filter hcycle
  · rw [Option.orElse_eq_orElse, Option.orElse_eq_or, Option.or_eq_some_iff] at h
    obtain htrace | ⟨-, hcurve⟩ := h
    · unfold traceDivisor? at htrace
      split at htrace
      · cases htrace
      · exact isProperDivisor_of_filter htrace
    · obtain ⟨i, -, hi⟩ := List.exists_of_findSome?_eq_some hcurve
      exact isProperDivisor_of_filter hi

theorem dvd_of_anyDivisor? {n d : Nat} (h : anyDivisor? n = some d) : d ∣ n := by
  have hproper : isProperDivisor n d = true := by
    unfold anyDivisor? at h
    split at h
    · rename_i found hclose
      cases h
      exact isProperDivisor_of_filter hclose
    · obtain ⟨effort, -, heffort⟩ := List.exists_of_findSome?_eq_some h
      exact Effort.isProperDivisor_of_properDivisor? heffort
  simp only [isProperDivisor, Bool.and_eq_true, beq_iff_eq] at hproper
  exact Nat.dvd_of_mod_eq_zero hproper.2

private theorem prod_flatMap_replicate (exponent : Nat) (factors : List Nat) :
    (factors.flatMap (List.replicate exponent)).prod = factors.prod ^ exponent := by
  induction factors with
  | nil => simp
  | cons p factors ih =>
    rw [List.flatMap_cons, List.prod_append, List.prod_replicate, ih, List.prod_cons, mul_pow]

private theorem largeFactors_prod (least depth n : Nat) :
    (largeFactors least depth n).prod = n := by
  induction depth generalizing n with
  | zero => exact fullDivision_prod least n
  | succ depth ih =>
    rw [largeFactors]
    split
    · rename_i hone
      rw [hone, List.prod_nil]
    split
    · exact List.prod_singleton
    split
    · exact List.prod_singleton
    cases hpower : perfectPower? n with
    | some found =>
      rw [prod_flatMap_replicate, ih]
      exact pow_of_perfectPower? hpower
    | none =>
      cases hdivisor : anyDivisor? n with
      | some d =>
        rw [List.prod_append, ih, ih]
        exact Nat.mul_div_cancel' (dvd_of_anyDivisor? hdivisor)
      | none => exact fullDivision_prod least n

private theorem insertAscending_perm (p : Nat) (factors : List Nat) :
    (insertAscending p factors).Perm (p :: factors) := by
  induction factors with
  | nil => exact List.Perm.refl _
  | cons q factors ih =>
    rw [insertAscending]
    split
    · exact List.Perm.refl _
    · exact (ih.cons q).trans (List.Perm.swap p q factors)

theorem foldr_insertAscending_perm (factors : List Nat) :
    (factors.foldr insertAscending []).Perm factors := by
  induction factors with
  | nil => exact List.Perm.refl _
  | cons p factors ih => exact (insertAscending_perm p _).trans (ih.cons p)

theorem primeFactors_prod (n : Nat) : (primeFactors n).prod = n := by
  rw [primeFactors]
  dsimp only
  rw [(foldr_insertAscending_perm _).prod_eq, List.prod_append, largeFactors_prod]
  exact trialDivision_prod smallTrials 2 n

theorem pos_of_mem_primeFactors {n p : Nat} (hn : 0 < n) (hp : p ∈ primeFactors n) : 0 < p := by
  have hdvd := List.dvd_prod hp
  rw [primeFactors_prod] at hdvd
  exact Nat.pos_of_dvd_of_pos hdvd hn

end Dataflow.Arithmetic
