import Dataflow.Arithmetic.Primality
import Dataflow.Proofs.Arithmetic.Power
import Dataflow.Proofs.Arithmetic.ResidueClass
import Mathlib.FieldTheory.Finite.Basic
import Mathlib.FieldTheory.IsAlgClosed.AlgebraicClosure
import Mathlib.GroupTheory.OrderOfElement

namespace Dataflow.Arithmetic

section Part

private theorem exists_strikeOut (p fuel n : Nat) : ∃ k, n = p ^ k * strikeOut p fuel n := by
  induction fuel generalizing n with
  | zero => exact ⟨0, by simp [strikeOut]⟩
  | succ fuel ih =>
    rw [strikeOut]
    split
    · rename_i hmod
      obtain ⟨k, hk⟩ := ih (n / p)
      refine ⟨k + 1, ?_⟩
      rw [pow_succ', mul_assoc, ← hk, Nat.mul_div_cancel' (Nat.dvd_of_mod_eq_zero hmod)]
    · exact ⟨0, by simp⟩

private theorem exists_foldl_strikeOut {primes : List Nat} (hprimes : ∀ r ∈ primes, r.Prime)
    (n : Nat) : ∃ part, n = part * primes.foldl (fun rest p => strikeOut p (rest.log2 + 1) rest) n ∧
      ∀ p, p.Prime → p ∣ part → p ∈ primes := by
  induction primes generalizing n with
  | nil => exact ⟨1, by simp, fun p hp hdvd => absurd hdvd hp.not_dvd_one⟩
  | cons r primes ih =>
    obtain ⟨hr, hprimes⟩ := List.forall_mem_cons.mp hprimes
    obtain ⟨k, hk⟩ := exists_strikeOut r (n.log2 + 1) n
    obtain ⟨part, hpart, hmem⟩ := ih hprimes (strikeOut r (n.log2 + 1) n)
    refine ⟨r ^ k * part, ?_, fun p hp hdvd => ?_⟩
    · rw [List.foldl_cons, mul_assoc, ← hpart, ← hk]
    · obtain hpow | hpart := hp.dvd_mul.mp hdvd
      · rw [(Nat.prime_dvd_prime_iff_eq hp hr).mp (hp.dvd_of_dvd_pow hpow)]
        exact List.mem_cons_self
      · exact List.mem_cons_of_mem r (hmem p hp hpart)

variable {primes : List Nat} {n m : Nat}

private theorem partOf_spec (hprimes : ∀ r ∈ primes, r.Prime) (hn : 0 < n) :
    partOf primes n ∣ n ∧ ∀ p, p.Prime → p ∣ partOf primes n → p ∈ primes := by
  obtain ⟨part, hpart, hmem⟩ := exists_foldl_strikeOut hprimes n
  have hpos := Nat.pos_of_mul_pos_left (hpart ▸ hn)
  have heq : partOf primes n = part := by
    rw [partOf]
    exact Nat.div_eq_of_eq_mul_left hpos hpart
  rw [heq]
  exact ⟨Dvd.intro _ hpart.symm, hmem⟩

/-- The part divides what the powers of its primes in the number divide. -/
theorem partOf_dvd (hprimes : ∀ r ∈ primes, r.Prime) (hn : 0 < n)
    (h : ∀ r ∈ primes, ∀ k, r ^ k ∣ n → r ^ k ∣ m) : partOf primes n ∣ m := by
  obtain ⟨hdvd, hmem⟩ := partOf_spec hprimes hn
  rw [Nat.dvd_iff_prime_pow_dvd_dvd]
  intro p k hp hpow
  obtain rfl | hk := Nat.eq_zero_or_pos k
  · simp
  · exact h p (hmem p hp ((dvd_pow_self p hk.ne').trans hpow)) k (hpow.trans hdvd)

end Part

section Order

variable {r k m n : Nat}

/-- A divisor that is lost by dividing by `r` holds the whole power of `r`. -/
theorem pow_dvd_of_not_dvd_div (hr : r.Prime) (hdvd : m ∣ n) (hlost : ¬ m ∣ n / r)
    (hpow : r ^ k ∣ n) : r ^ k ∣ m := by
  obtain ⟨c, rfl⟩ := hdvd
  have hcoprime : Nat.Coprime r c := (Nat.Prime.coprime_iff_not_dvd hr).mpr fun hc =>
    hlost (Nat.mul_div_assoc m hc ▸ Dvd.intro _ rfl)
  exact (Nat.Coprime.pow_left k hcoprime).dvd_of_dvd_mul_right hpow

private theorem pow_dvd_of_pow_eq_one {G : Type} [Monoid G] {x : G} {e : Nat} (hr : r.Prime)
    (hone : x ^ n = 1) (hne : x ^ (n / r) ≠ 1) (he : x ^ e = 1) (hpow : r ^ k ∣ n) : r ^ k ∣ e :=
  (pow_dvd_of_not_dvd_div hr (orderOf_dvd_of_pow_eq_one hone)
    (fun hdvd => hne (orderOf_dvd_iff_pow_eq_one.mp hdvd)) hpow).trans
      (orderOf_dvd_of_pow_eq_one he)

end Order

section Witness

variable {n q r k : Nat}

private theorem cast_ne_zero_of_gcd {K : Type} [Field K] [CharP K q] (hq : q.Prime) (hqn : q ∣ n)
    {a : Nat} (h : Nat.gcd a n = 1) : (a : K) ≠ 0 := fun hzero =>
  hq.not_dvd_one (h ▸ Nat.dvd_gcd ((CharP.cast_eq_zero_iff K q a).mp hzero) hqn)

private theorem dvd_pred_of_isLowerWitness {base : Nat} (hq : q.Prime) (hqn : q ∣ n) (hn : 1 < n)
    (hr : r.Prime) (h : isLowerWitness n r base = true) (hpow : r ^ k ∣ n - 1) : r ^ k ∣ q - 1 := by
  have := Fact.mk hq
  simp only [isLowerWitness, Bool.and_eq_true, beq_iff_eq] at h
  obtain ⟨hone, hgcd⟩ := h
  have hbase : (base : ZMod q) ^ (n - 1) = 1 := by
    rw [← cast_powMod hqn, hone, Nat.cast_one]
  refine pow_dvd_of_pow_eq_one hr hbase (fun hpower => ?_) (ZMod.pow_card_sub_one_eq_one ?_) hpow
  · apply cast_ne_zero_of_gcd (K := ZMod q) hq hqn hgcd
    rw [← cast_powMod hqn] at hpower
    cases hvalue : powMod base ((n - 1) / r) n with
    | zero => rw [Nat.zero_sub, Nat.cast_zero]
    | succ m =>
      rw [hvalue, Nat.cast_succ, add_eq_right] at hpower
      exact hpower
  · intro hzero
    rw [hzero, zero_pow (by omega)] at hbase
    exact zero_ne_one hbase

/-- A field where a prime factor of `n` is zero, with a square root of `d`. -/
structure SquareRoot (n d q : Nat) (K : Type) [Field K] [CharP K q] (root : K) : Prop where
  prime : q.Prime
  dvd : q ∣ n
  sq : root * root = d
  double_ne : 2 * root ≠ 0

namespace SquareRoot

variable {d t : Nat} {K : Type} [Field K] [CharP K q] {root : K}

private theorem neg_sq (h : SquareRoot n d q K root) : -root * -root = d := by
  rw [neg_mul_neg, h.sq]

/-- The sum and the difference with the root, to some power. -/
theorem pow_sub_pow (h : SquareRoot n d q K root) (t e : Nat) :
    ((t : K) + root) ^ e - (t - root) ^ e =
      (Surd.powMod d n ⟨t, 1⟩ e).irrational * (2 * root) := by
  have hplus := Surd.value_powMod h.dvd h.sq ⟨t, 1⟩ e
  have hminus := Surd.value_powMod h.dvd h.neg_sq ⟨t, 1⟩ e
  simp only [Surd.value, Nat.cast_one, one_mul, ← sub_eq_add_neg] at hplus hminus
  rw [← hplus, ← hminus]
  ring

private theorem pow_char_cases (h : SquareRoot n d q K root) :
    root ^ q = root ∨ root ^ q = -root := by
  have := Fact.mk h.prime
  apply mul_self_eq_mul_self_iff.mp
  rw [← mul_pow, h.sq, ← frobenius_def, map_natCast]

private theorem dvd_of_isUpperWitness (h : SquareRoot n d q K root) (hlt : d < n) (hr : r.Prime)
    (hwitness : isUpperWitness n d r t = true) (hpow : r ^ k ∣ n + 1) :
    (root ^ q = root → r ^ k ∣ q - 1) ∧ (root ^ q = -root → r ^ k ∣ q + 1) := by
  have := Fact.mk h.prime
  simp only [isUpperWitness, Bool.and_eq_true, beq_iff_eq] at hwitness
  obtain ⟨⟨hnorm, hone⟩, hgcd⟩ := hwitness
  have hproduct : ((t : K) + root) * (t - root) ≠ 0 := by
    have hne := cast_ne_zero_of_gcd (K := K) h.prime h.dvd hnorm
    rw [Nat.cast_add, Nat.cast_mul, Nat.cast_sub hlt.le,
      (CharP.cast_eq_zero_iff K q n).mpr h.dvd, zero_sub, ← h.sq] at hne
    convert hne using 1
    ring
  obtain ⟨hsum, hdifference⟩ := mul_ne_zero_iff.mp hproduct
  have hpower (e : Nat) : (((t : K) + root) / (t - root)) ^ e = 1 ↔
      ((Surd.powMod d n ⟨t, 1⟩ e).irrational : K) = 0 := by
    rw [div_pow, div_eq_one_iff_eq (pow_ne_zero e hdifference), ← sub_eq_zero, h.pow_sub_pow,
      mul_eq_zero, or_iff_left h.double_ne]
  have hfull := (hpower (n + 1)).mpr (by rw [hone, Nat.cast_zero])
  have hpart := mt (hpower ((n + 1) / r)).mp (cast_ne_zero_of_gcd h.prime h.dvd hgcd)
  have hcast : (t : K) ^ q = t := by rw [← frobenius_def, map_natCast]
  refine ⟨fun hroot => ?_, fun hroot => ?_⟩
  · -- The root is fixed by the power of `q`, and so is the element.
    refine pow_dvd_of_pow_eq_one hr hfull hpart ?_ hpow
    rw [pow_sub₀ _ (div_ne_zero hsum hdifference) h.prime.one_le, div_pow, add_pow_char,
      sub_pow_char, hcast, hroot, pow_one]
    exact mul_inv_cancel₀ (div_ne_zero hsum hdifference)
  · -- The power of `q` changes the sign of the root, which inverts the element.
    refine pow_dvd_of_pow_eq_one hr hfull hpart ?_ hpow
    rw [pow_succ, div_pow, add_pow_char, sub_pow_char, hcast, hroot, sub_neg_eq_add,
      ← sub_eq_add_neg, div_mul_div_comm, mul_comm, div_self hproduct]

end SquareRoot

end Witness

section Certificate

variable {n q : Nat} {lower upper : List Nat}

private theorem lower_dvd (hq : q.Prime) (hqn : q ∣ n) (hn : 1 < n) (hlower : ∀ r ∈ lower, r.Prime)
    (h : hasLowerWitnesses n lower = true) : partOf lower (n - 1) ∣ q - 1 := by
  refine partOf_dvd hlower (by omega) fun r hr k hpow => ?_
  obtain ⟨base, -, hbase⟩ := List.any_eq_true.mp (List.all_eq_true.mp h r hr)
  exact dvd_pred_of_isLowerWitness hq hqn hn (hlower r hr) hbase hpow

private theorem exists_squareRoot {d : Nat} (hq : q.Prime) (hqn : q ∣ n) (hodd : n % 2 = 1)
    (hd : Nat.gcd d n = 1) : ∃ (K : Type) (_ : Field K) (_ : CharP K q) (root : K),
      SquareRoot n d q K root := by
  have := Fact.mk hq
  obtain ⟨root, hroot⟩ := IsAlgClosed.exists_eq_mul_self (d : AlgebraicClosure (ZMod q))
  have htwo : Nat.gcd 2 n = 1 := Nat.coprime_two_left.mpr (Nat.odd_iff.mpr hodd)
  have hne : root ≠ 0 := by
    rintro rfl
    exact cast_ne_zero_of_gcd hq hqn hd (hroot.trans (mul_zero 0))
  exact ⟨_, inferInstance, inferInstance, root, hq, hqn, hroot.symm,
    mul_ne_zero (by simpa using cast_ne_zero_of_gcd (K := AlgebraicClosure (ZMod q)) hq hqn htwo)
      hne⟩

/-- The part of `n + 1` divides the same neighbour of the prime factor for all of its primes. -/
theorem upper_dvd (hq : q.Prime) (hqn : q ∣ n) (hodd : n % 2 = 1) (hupper : ∀ r ∈ upper, r.Prime)
    (h : hasUpperWitnesses n upper = true) :
    partOf upper (n + 1) ∣ q - 1 ∨ partOf upper (n + 1) ∣ q + 1 := by
  unfold hasUpperWitnesses at h
  cases hbase : nonResidue? n with
  | none =>
    simp only [hbase, List.isEmpty_iff] at h
    subst h
    exact .inl (partOf_dvd hupper (Nat.succ_pos n) (by simp))
  | some d =>
    simp only [hbase, Bool.and_eq_true, decide_eq_true_eq, beq_iff_eq] at h
    obtain ⟨⟨hlt, hd⟩, hall⟩ := h
    obtain ⟨K, _, _, root, hroot⟩ := exists_squareRoot hq hqn hodd hd
    have hpow (r : Nat) (hr : r ∈ upper) (k : Nat) (hrk : r ^ k ∣ n + 1) :
        (root ^ q = root → r ^ k ∣ q - 1) ∧ (root ^ q = -root → r ^ k ∣ q + 1) := by
      obtain ⟨t, -, ht⟩ := List.any_eq_true.mp (List.all_eq_true.mp hall r hr)
      exact hroot.dvd_of_isUpperWitness hlt (hupper r hr) ht hrk
    obtain hsign | hsign := hroot.pow_char_cases
    · exact .inl (partOf_dvd hupper (Nat.succ_pos n) fun r hr k hrk => (hpow r hr k hrk).1 hsign)
    · exact .inr (partOf_dvd hupper (Nat.succ_pos n) fun r hr k hrk => (hpow r hr k hrk).2 hsign)

/-- Of two factors, one is one modulo a part of `n + 1` if the other is minus one. -/
theorem modEq_one_of_mul {u v part : Nat} (hu : part ∣ u + 1) (hmul : part ∣ u * v + 1) :
    v ≡ 1 [MOD part] := by
  have hzero : u + 1 ≡ 0 [MOD part] := (Nat.modEq_zero_iff_dvd).mpr hu
  have hsum : u * v + v ≡ u * v + 1 [MOD part] :=
    calc u * v + v = (u + 1) * v := by ring
      _ ≡ 0 * v [MOD part] := hzero.mul_right v
      _ ≡ u * v + 1 [MOD part] := by
        rw [Nat.zero_mul]
        exact ((Nat.modEq_zero_iff_dvd).mpr hmul).symm
  exact Nat.ModEq.add_left_cancel' (u * v) hsum

private theorem modEq_one_of_dvd_pred {u part : Nat} (hu : 0 < u) (hdvd : part ∣ u - 1) :
    u ≡ 1 [MOD part] :=
  ((Nat.modEq_iff_dvd' hu).mpr hdvd).symm

private theorem modEq_one_of_mul_modEq {u v part : Nat} (hu : u ≡ 1 [MOD part])
    (hmul : u * v ≡ 1 [MOD part]) : v ≡ 1 [MOD part] := by
  simpa using (hu.symm.mul_right v).trans hmul

private theorem modEq_lcm {a b c d : Nat} (ha : c ≡ d [MOD a]) (hb : c ≡ d [MOD b]) :
    c ≡ d [MOD Nat.lcm a b] := by
  rw [← Int.natCast_modEq_iff] at ha hb ⊢
  rw [← Int.lcm_natCast_natCast]
  exact Int.modEq_and_modEq_iff_modEq_lcm.mp ⟨ha, hb⟩

/-- A prime factor of `n` or its cofactor is one modulo both parts. -/
theorem modEq_one_or {v : Nat} (hn : n = q * v) (hq : q.Prime) (hone : 1 < n) (hodd : n % 2 = 1)
    (hlower : ∀ r ∈ lower, r.Prime) (hupper : ∀ r ∈ upper, r.Prime)
    (hlowers : hasLowerWitnesses n lower = true) (huppers : hasUpperWitnesses n upper = true) :
    q ≡ 1 [MOD Nat.lcm (partOf lower (n - 1)) (partOf upper (n + 1))] ∨
      v ≡ 1 [MOD Nat.lcm (partOf lower (n - 1)) (partOf upper (n + 1))] := by
  have hqn : q ∣ n := ⟨v, hn⟩
  have hqlower := modEq_one_of_dvd_pred hq.pos (lower_dvd hq hqn hone hlower hlowers)
  have hnlower := modEq_one_of_dvd_pred (by omega) (partOf_spec hlower (n := n - 1) (by omega)).1
  have hvlower : v ≡ 1 [MOD partOf lower (n - 1)] :=
    modEq_one_of_mul_modEq hqlower (by rwa [← hn])
  have hnupper := (partOf_spec hupper (Nat.succ_pos n)).1
  obtain hdvd | hdvd := upper_dvd hq hqn hodd hupper huppers
  · exact .inl (modEq_lcm hqlower (modEq_one_of_dvd_pred hq.pos hdvd))
  · exact .inr (modEq_lcm hvlower (modEq_one_of_mul hdvd (by rwa [← hn])))

theorem one_lt_of_certifies (h : certifies n lower upper = true) : 1 < n := by
  simp only [certifies, Bool.and_eq_true, decide_eq_true_eq] at h
  exact h.1.1.1.1.2

theorem prime_of_certifies (hlower : ∀ r ∈ lower, r.Prime) (hupper : ∀ r ∈ upper, r.Prime)
    (h : certifies n lower upper = true) : n.Prime := by
  simp only [certifies, Bool.and_eq_true, beq_iff_eq, decide_eq_true_eq,
    Bool.not_eq_true'] at h
  obtain ⟨⟨⟨⟨⟨hodd, hone⟩, hcube⟩, hlowers⟩, huppers⟩, hsearch⟩ := h
  have hnlower := (partOf_spec hlower (n := n - 1) (by omega)).1
  have hnupper : partOf upper (n + 1) ∣ n + 1 := (partOf_spec hupper (Nat.succ_pos n)).1
  have hmodulus : n % Nat.lcm (partOf lower (n - 1)) (partOf upper (n + 1)) ≠ 0 := by
    intro hmod
    have hdvd := Nat.dvd_of_mod_eq_zero hmod
    have hlowerOne := (Nat.dvd_sub ((Nat.dvd_lcm_left _ _).trans hdvd) hnlower)
    have hupperOne := (Nat.dvd_sub hnupper ((Nat.dvd_lcm_right _ _).trans hdvd))
    rw [Nat.sub_sub_self hone.le, Nat.dvd_one] at hlowerOne
    rw [Nat.add_sub_cancel_left, Nat.dvd_one] at hupperOne
    rw [hlowerOne, hupperOne] at hcube
    exact absurd hcube (by simpa using Nat.ne_of_gt (Nat.zero_lt_of_lt hone))
  have hpos : 0 < Nat.lcm (partOf lower (n - 1)) (partOf upper (n + 1)) := by
    refine Nat.pos_of_ne_zero fun hzero => ?_
    rw [hzero] at hcube
    exact Nat.not_lt_zero n hcube
  by_contra hprime
  obtain ⟨v, hv⟩ := Nat.minFac_dvd n
  have hmin := Nat.minFac_prime hone.ne'
  have hv1 : 1 < v := by
    by_contra hle
    obtain rfl | rfl : v = 0 ∨ v = 1 := by omega
    · omega
    · exact hprime (by rwa [hv, Nat.mul_one])
  apply Bool.false_ne_true
  rw [← hsearch]
  obtain hunit | hunit := modEq_one_or hv hmin hone hodd hlower hupper hlowers huppers
  · exact mayFactorWithUnit_eq hv hmin.one_lt hv1 hunit hpos hcube hmodulus
  · exact mayFactorWithUnit_eq (hv.trans (Nat.mul_comm _ _)) hv1 hmin.one_lt hunit hpos hcube
      hmodulus

end Certificate

end Dataflow.Arithmetic
