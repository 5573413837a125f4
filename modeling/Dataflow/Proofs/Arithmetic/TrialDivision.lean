import Dataflow.Arithmetic.TrialDivision
import Mathlib.Data.Nat.Prime.Basic

namespace Dataflow.Arithmetic

/-- A positive number without prime factors below the candidate `k`, which is two or odd. -/
structure Sifted (k n : Nat) : Prop where
  pos : 0 < n
  two_le : 2 ≤ k
  odd : k = 2 ∨ k % 2 = 1
  le_of_dvd : ∀ p, p.Prime → p ∣ n → k ≤ p

namespace Sifted

variable {k n : Nat}

theorem start (hn : 0 < n) : Sifted 2 n :=
  ⟨hn, Nat.le_refl 2, .inl rfl, fun _ hp _ => hp.two_le⟩

theorem of_dvd (h : Sifted k n) {d : Nat} (hd : d ∣ n) : Sifted k d :=
  ⟨Nat.pos_of_dvd_of_pos hd h.pos, h.two_le, h.odd,
    fun p hp hdvd => h.le_of_dvd p hp (hdvd.trans hd)⟩

theorem prime_of_lt_sq (h : Sifted k n) (hne : n ≠ 1) (hlt : n < k * k) : n.Prime := by
  by_contra hprime
  have hle := h.le_of_dvd _ (Nat.minFac_prime hne) (Nat.minFac_dvd n)
  have hsq := Nat.minFac_sq_le_self h.pos hprime
  rw [pow_two] at hsq
  exact absurd (Nat.mul_le_mul hle hle) (by omega)

private theorem prime_of_dvd (h : Sifted k n) (hdvd : k ∣ n) : k.Prime := by
  have hne : k ≠ 1 := by have := h.two_le; omega
  have hle := h.le_of_dvd _ (Nat.minFac_prime hne) ((Nat.minFac_dvd k).trans hdvd)
  have hge := Nat.minFac_le (Nat.lt_of_lt_of_le Nat.zero_lt_two h.two_le)
  exact Nat.le_antisymm hle hge ▸ Nat.minFac_prime hne

private theorem next (h : Sifted k n) (hdvd : ¬ k ∣ n) : Sifted (nextCandidate k) n := by
  have htwo := h.two_le
  unfold nextCandidate
  refine ⟨h.pos, by split <;> omega, by have := h.odd; split <;> omega, fun p hp hpn => ?_⟩
  have hle := h.le_of_dvd p hp hpn
  have hne : p ≠ k := by
    rintro rfl
    exact hdvd hpn
  split
  · omega
  · -- Between two odd candidates there is an even number, which is no prime.
    have hodd := h.odd
    have hp2 := hp.eq_two_or_odd
    omega

end Sifted

theorem prime_of_mem_trialDivision {fuel k n p : Nat} (h : Sifted k n)
    (hp : p ∈ (trialDivision fuel k n).1) : p.Prime := by
  induction fuel generalizing k n with
  | zero => simp [trialDivision] at hp
  | succ fuel ih =>
    rw [trialDivision] at hp
    split at hp
    · simp at hp
    · split at hp
      · rename_i hmod
        have hdvd := Nat.dvd_of_mod_eq_zero hmod
        obtain rfl | hp := List.mem_cons.mp hp
        · exact h.prime_of_dvd hdvd
        · exact ih (h.of_dvd (Nat.div_dvd_of_dvd hdvd)) hp
      · rename_i hmod
        exact ih (h.next fun hdvd => hmod (Nat.mod_eq_zero_of_dvd hdvd)) hp

/-- What is left has no prime factors below the next candidate. -/
theorem sifted_of_trialDivision {fuel k n : Nat} (h : Sifted k n) :
    Sifted (trialDivision fuel k n).2.2 (trialDivision fuel k n).2.1 := by
  induction fuel generalizing k n with
  | zero => exact h
  | succ fuel ih =>
    rw [trialDivision]
    split
    · exact h
    · split
      · rename_i hmod
        exact ih (h.of_dvd (Nat.div_dvd_of_dvd (Nat.dvd_of_mod_eq_zero hmod)))
      · rename_i hmod
        exact ih (h.next fun hdvd => hmod (Nat.mod_eq_zero_of_dvd hdvd))

/-- With enough trials the candidates pass the root of what is left. -/
theorem lt_sq_of_trialDivision {fuel k n : Nat} (h : Sifted k n) (hfuel : n < fuel + k) :
    (trialDivision fuel k n).2.1 < (trialDivision fuel k n).2.2 * (trialDivision fuel k n).2.2 := by
  have htwo := h.two_le
  induction fuel generalizing k n with
  | zero =>
    have hsq : k * 1 ≤ k * k := Nat.mul_le_mul_left k (by omega)
    show n < k * k
    omega
  | succ fuel ih =>
    rw [trialDivision]
    split
    · assumption
    · split
      · rename_i hmod
        have hlt := Nat.div_lt_self h.pos htwo
        exact ih (h.of_dvd (Nat.div_dvd_of_dvd (Nat.dvd_of_mod_eq_zero hmod))) (by omega) htwo
      · rename_i hmod
        have hnext := h.next fun hdvd => hmod (Nat.mod_eq_zero_of_dvd hdvd)
        have hlt : k < nextCandidate k := by
          unfold nextCandidate
          split <;> omega
        exact ih hnext (by omega) hnext.two_le

theorem prime_of_mem_fullDivision {k n p : Nat} (h : Sifted k n) (hp : p ∈ fullDivision k n) :
    p.Prime := by
  have htwo := h.two_le
  rw [fullDivision] at hp
  dsimp only at hp
  split at hp
  · exact prime_of_mem_trialDivision h hp
  · rename_i hne
    obtain hp | hp := List.mem_append.mp hp
    · exact prime_of_mem_trialDivision h hp
    · rw [List.mem_singleton.mp hp]
      exact (sifted_of_trialDivision h).prime_of_lt_sq hne (lt_sq_of_trialDivision h (by omega))

end Dataflow.Arithmetic
