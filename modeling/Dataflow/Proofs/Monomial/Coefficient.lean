import Dataflow.Proofs.Monomial.Derived
import Dataflow.Proofs.Monomial.Divisibility
import Mathlib.Data.Nat.Factorization.Basic
import Mathlib.NumberTheory.Bertrand

namespace Dataflow.Monomial

open Text

variable {a b m : Monomial}

section Factorization

theorem prod_numbers_ne_zero (h : m.Legible) : m.numbers.prod ≠ 0 :=
  (List.prod_pos fun _ hp => (prime_of_mem_numbers h hp).pos).ne'

theorem prod_numbers_of_isOne (h : m.isOne = true) : m.numbers.prod = 1 := by
  rw [numbers, List.isEmpty_iff.mp h]
  rfl

/-- The power of the text of a number is how often the number is a prime factor of the
coefficient. -/
theorem factorization_prod_numbers (h : m.Legible) (p : Nat) :
    m.numbers.prod.factorization p = m.power p.repr := by
  have hperm := Nat.primeFactorsList_unique rfl fun q hq => prime_of_mem_numbers h hq
  rw [← Nat.primeFactorsList_count_eq, ← hperm.count_eq,
    ← List.count_map_of_injective _ _ Numeral.repr_injective, count_map_repr_numbers h,
    if_pos (isNumeral_repr p)]

theorem prod_numbers_mul (ha : a.Legible) (hb : b.Legible) :
    (a * b).numbers.prod = a.numbers.prod * b.numbers.prod := by
  have hprod : (a * b).Legible := Over.mul ha hb
  refine Nat.eq_of_factorization_eq (prod_numbers_ne_zero hprod)
    (Nat.mul_ne_zero (prod_numbers_ne_zero ha) (prod_numbers_ne_zero hb)) fun p => ?_
  rw [Nat.factorization_mul (prod_numbers_ne_zero ha) (prod_numbers_ne_zero hb),
    Finsupp.add_apply, factorization_prod_numbers hprod, factorization_prod_numbers ha,
    factorization_prod_numbers hb, power_mul]

private theorem prod_numbers_gcd (ha : a.Legible) (hb : b.Legible) :
    (a.gcd b).numbers.prod = a.numbers.prod.gcd b.numbers.prod := by
  have hgcd : (a.gcd b).Legible := Over.gcd ha
  refine Nat.eq_of_factorization_eq (prod_numbers_ne_zero hgcd)
    (Nat.gcd_ne_zero_left (prod_numbers_ne_zero ha)) fun p => ?_
  rw [Nat.factorization_gcd (prod_numbers_ne_zero ha) (prod_numbers_ne_zero hb),
    Finsupp.inf_apply, factorization_prod_numbers hgcd, factorization_prod_numbers ha,
    factorization_prod_numbers hb, power_gcd]

private theorem prod_numbers_lcm (ha : a.Legible) (hb : b.Legible) :
    (a.lcm b).numbers.prod = a.numbers.prod.lcm b.numbers.prod := by
  have hlcm : (a.lcm b).Legible := Over.lcm ha hb
  refine Nat.eq_of_factorization_eq (prod_numbers_ne_zero hlcm)
    (Nat.lcm_ne_zero (prod_numbers_ne_zero ha) (prod_numbers_ne_zero hb)) fun p => ?_
  rw [Nat.factorization_lcm (prod_numbers_ne_zero ha) (prod_numbers_ne_zero hb),
    Finsupp.sup_apply, factorization_prod_numbers hlcm, factorization_prod_numbers ha,
    factorization_prod_numbers hb, power_lcm]

/-- The numeric divisors that occur are compared by comparing numbers: all of them are texts of
primes, and each prime has one text. -/
theorem prod_numbers_dvd_iff (ha : a.Legible) (hb : b.Legible) :
    a.numbers.prod ∣ b.numbers.prod ↔
      ∀ key, isNumeral key = true → a.power key ≤ b.power key := by
  rw [← Nat.factorization_le_iff_dvd (prod_numbers_ne_zero ha) (prod_numbers_ne_zero hb),
    Finsupp.le_def]
  constructor
  · intro h key hkey
    by_cases hpower : 0 < a.power key
    · obtain ⟨p, -, -, rfl⟩ := (ha key hpower).exists_of_isNumeral hkey
      rw [← factorization_prod_numbers ha, ← factorization_prod_numbers hb]
      exact h p
    · omega
  · intro h p
    rw [factorization_prod_numbers ha, factorization_prod_numbers hb]
    exact h p.repr (isNumeral_repr p)

private theorem divides_iff_dvd (ha : a.Legible) (hb : b.Legible) :
    a.divides b = true ↔ a.numbers.prod ∣ b.numbers.prod ∧
      ∀ key, isNumeral key = false → a.power key ≤ b.power key := by
  rw [divides_iff, prod_numbers_dvd_iff ha hb, ← forall_and]
  refine forall_congr' fun key => ?_
  cases isNumeral key <;> simp

theorem beq_iff_eq_prod (ha : a.Legible) (hb : b.Legible) :
    (a == b) = true ↔ a.numbers.prod = b.numbers.prod ∧
      ∀ key, isNumeral key = false → a.power key = b.power key := by
  rw [beq_iff_divides, divides_iff_dvd ha hb, divides_iff_dvd hb ha]
  constructor
  · rintro ⟨⟨hdvd, hle⟩, hdvd', hle'⟩
    exact ⟨Nat.dvd_antisymm hdvd hdvd', fun key hkey =>
      Nat.le_antisymm (hle key hkey) (hle' key hkey)⟩
  · rintro ⟨heq, hpowers⟩
    exact ⟨⟨heq ▸ dvd_rfl, fun key hkey => (hpowers key hkey).le⟩,
      heq ▸ dvd_rfl, fun key hkey => (hpowers key hkey).ge⟩

/-- What is left of a dividend is the quotient of the numbers. -/
theorem prod_numbers_strike (ha : a.Legible) (hb : b.Legible) (h : a.divides b = true) :
    (b.strike a).numbers.prod * a.numbers.prod = b.numbers.prod := by
  have hrest : (b.strike a).Legible := Over.strike hb a
  rw [← prod_numbers_mul hrest ha]
  refine prod_numbers_congr (Over.mul hrest ha) hb (beq_iff.mpr fun key => ?_)
  rw [power_mul, power_strike]
  exact Nat.sub_add_cancel (divides_iff.mp h key)

end Factorization

section Sums

private theorem primeFactors_perm_primeFactorsList {n : Nat} (hn : 0 < n) :
    (Arithmetic.primeFactors n).Perm n.primeFactorsList :=
  Nat.primeFactorsList_unique (Arithmetic.primeFactors_prod n) fun _ hq =>
    Arithmetic.prime_of_mem_primeFactors hn hq

private theorem mem_primeFactors_iff {n p : Nat} (hn : 0 < n) :
    p ∈ Arithmetic.primeFactors n ↔ p.Prime ∧ p ∣ n := by
  rw [(primeFactors_perm_primeFactorsList hn).mem_iff, Nat.mem_primeFactorsList hn.ne']

/-- A number whose prime factors can be written is the coefficient of its monomial. -/
theorem exists_ofNumber {n : Nat} (hn : 0 < n)
    (h : ∀ p, p.Prime → p ∣ n → Numeral.isWritable p = true) :
    ∃ m, ofNumber n = .ok m ∧ m.isConstant = true ∧ m.numbers.prod = n := by
  have hfactors : ∀ p ∈ Arithmetic.primeFactors n, Numeral.isWritable p = true :=
    fun p hp => ((mem_primeFactors_iff hn).mp hp).elim (h p)
  obtain ⟨f, hf, hpower⟩ := exists_foldlM_write hfactors Factors.empty
  have hnumber : ofNumber n = .ok ⟨f⟩ := by
    have hfold : Factors.ofNumber n = .ok f := by
      rw [Factors.ofNumber, if_neg (by omega)]
      exact hf
    rw [ofNumber, hfold]
    rfl
  refine ⟨⟨f⟩, hnumber, List.all_eq_true.mpr fun key hkey => ?_, ?_⟩
  · have hcount := hpower key
    rw [Factors.power_empty, Nat.zero_add] at hcount
    have hpos : 0 < ((Arithmetic.primeFactors n).map Nat.repr).count key :=
      hcount ▸ Factors.power_pos_iff.mpr hkey
    obtain ⟨p, -, rfl⟩ := List.mem_map.mp (List.count_pos_iff.mp hpos)
    exact isNumeral_repr p
  · have hlegible := legible_of_ofNumber hnumber
    refine Nat.eq_of_factorization_eq (prod_numbers_ne_zero hlegible) hn.ne' fun p => ?_
    rw [factorization_prod_numbers hlegible, power, hpower, Factors.power_empty, Nat.zero_add,
      List.count_map_of_injective _ _ Numeral.repr_injective,
      (primeFactors_perm_primeFactorsList hn).count_eq, Nat.primeFactorsList_count_eq]

/-- A constant has no power of a parameter. -/
theorem isConstant_iff :
    m.isConstant = true ↔ ∀ key, isNumeral key = false → m.power key = 0 := by
  rw [isConstant, List.all_eq_true]
  constructor
  · intro hconstant key hkey
    by_contra hpower
    have hmem := Factors.power_pos_iff.mp (Nat.pos_of_ne_zero hpower)
    rw [hconstant key hmem] at hkey
    cases hkey
  · intro hzero key hmem
    by_contra hkey
    have hpos : 0 < m.power key := Factors.power_pos_iff.mpr hmem
    rw [hzero key (Bool.eq_false_iff.mpr hkey)] at hpos
    exact Nat.lt_irrefl 0 hpos

theorem isConstant_mul (ha : a.isConstant = true) (hb : b.isConstant = true) :
    (a * b).isConstant = true :=
  isConstant_iff.mpr fun key hkey => by
    rw [power_mul, isConstant_iff.mp ha key hkey, isConstant_iff.mp hb key hkey]

private theorem parameters_eq_nil (h : m.isConstant = true) : m.parameters = [] := by
  have hnone : m.factors.keys.filter (fun key => !isNumeral key) = [] :=
    List.filter_eq_nil_iff.mpr fun key hkey => by simp [List.all_eq_true.mp h key hkey]
  rw [parameters, hnone, sortTexts, List.mergeSort_nil]

private theorem spelling_eq_nil (h : m.isConstant = true) : m.spelling = [] := by
  rw [spelling, parameters_eq_nil h, List.flatMap_nil]

theorem spellable_of_isConstant (h : m.isConstant = true) : m.Spellable := by
  rw [Spellable, parameters_eq_nil h]
  exact List.forall_mem_nil _

/-- A number that can be written is read as the monomial with that coefficient. -/
theorem exists_parse_repr {n : Nat} (hn : 0 < n) (h : Numeral.isWritable n = true) :
    ∃ m, parse n.repr = .ok m ∧ m.isConstant = true ∧ m.numbers.prod = n := by
  obtain ⟨m, hm, hconstant, hprod⟩ := exists_ofNumber hn fun p _ hdvd =>
    Numeral.isWritable_of_le (Nat.le_of_dvd hn hdvd) h
  have hlegible := legible_of_ofNumber hm
  have hrender : m.render = .ok n.repr := by
    rw [render_eq hlegible, if_pos (spellable_of_isConstant hconstant), hprod, if_pos h, pieces,
      spelling_eq_nil hconstant, hprod, if_neg fun hone => hone.2 rfl]
    rfl
  obtain ⟨read, hread, heq⟩ := parse_render hlegible hrender
  refine ⟨read, hread, isConstant_iff.mpr fun key hkey => ?_,
    (prod_numbers_congr (legible_of_parse hread) hlegible heq).trans hprod⟩
  exact (beq_iff.mp heq key).trans (isConstant_iff.mp hconstant key hkey)

/-- A number with a prime factor that cannot be written has no monomial. -/
theorem ofNumber_eq_error {n p : Nat} (hn : 0 < n) (hp : p.Prime) (hdvd : p ∣ n)
    (hwritable : Numeral.isWritable p = false) : ofNumber n = .error .numberTooLarge := by
  have hfactors : Factors.ofNumber n = .error .numberTooLarge := by
    rw [Factors.ofNumber, if_neg (by omega)]
    cases hfold : (Arithmetic.primeFactors (n : Int).toNat).foldlM (fun f p => do
        let key ← Numeral.write p
        return f.set key (f.power key + 1)) Factors.empty with
    | ok f =>
      obtain ⟨_, _, hstep⟩ :=
        Except.exists_of_mem_foldlM hfold ((mem_primeFactors_iff hn).mpr ⟨hp, hdvd⟩)
      obtain ⟨key, hkey, -⟩ := Except.bind_eq_ok_iff.mp hstep
      rw [(Numeral.write_eq_ok_iff.mp hkey).1] at hwritable
      cases hwritable
    | error e =>
      obtain ⟨q, -, _, hstep⟩ := Except.exists_of_foldlM_eq_error hfold
      obtain hkey | ⟨_, -, hstep⟩ := Except.bind_eq_error_iff.mp hstep
      · unfold Numeral.write at hkey
        split at hkey <;> cases hkey
        rfl
      · cases hstep
  rw [ofNumber, hfactors]
  rfl

private theorem toNumber_eq (h : m.Legible) (hconstant : m.isConstant = true) :
    m.toNumber = .ok m.numbers.prod := by
  rw [toNumber, if_pos hconstant, coefficient_eq h]

private theorem add_eq (ha : a.Legible) (hb : b.Legible) (haconstant : a.isConstant = true)
    (hbconstant : b.isConstant = true) :
    a.add b = ofNumber (a.numbers.prod + b.numbers.prod : Nat) := by
  rw [add, haconstant, hbconstant, toNumber_eq ha haconstant, toNumber_eq hb hbconstant]
  rfl

end Sums

/-- What the operations do to monomials with the coefficients `m` and `n`: they calculate with the
coefficients as with numbers, and with the parameters power by power. -/
structure Calculates (a b : Monomial) (m n : Nat) : Prop where
  left : a.coefficient = .ok m
  right : b.coefficient = .ok n
  mul : (a * b).coefficient = .ok (m * n)
  gcd : (a.gcd b).coefficient = .ok (m.gcd n)
  lcm : (a.lcm b).coefficient = .ok (m.lcm n)
  divides_iff : a.divides b = true ↔
    m ∣ n ∧ ∀ key, isNumeral key = false → a.power key ≤ b.power key
  div : a.divides b = true → ∃ quotient, b.div a = .ok quotient ∧
    quotient.coefficient = .ok (n / m)
  beq_iff : (a == b) = true ↔ m = n ∧ ∀ key, isNumeral key = false → a.power key = b.power key
  toNumber : a.isConstant = true → b.isConstant = true → a.toNumber = .ok m ∧ b.toNumber = .ok n
  add : a.isConstant = true → b.isConstant = true →
    (∀ p : Nat, p.Prime → p ∣ m + n → p.repr.length ≤ Numeral.maxDigits) →
      ∃ sum, a.add b = .ok sum ∧ sum.toNumber = .ok (m + n)
  add_tooLarge : a.isConstant = true → b.isConstant = true →
    (∃ p : Nat, p.Prime ∧ p ∣ m + n ∧ Numeral.maxDigits < p.repr.length) →
      a.add b = .error .numberTooLarge

/-- Monomials that were made have natural numbers as coefficients, and the operations on them
multiply, divide, add and factor these numbers exactly. -/
theorem derived_calculates (ha : a.Derived) (hb : b.Derived) : ∃ m n, Calculates a b m n := by
  have hal := ha.legible
  have hbl := hb.legible
  have hpos : 0 < a.numbers.prod + b.numbers.prod :=
    Nat.add_pos_left (Nat.pos_of_ne_zero (prod_numbers_ne_zero hal)) _
  refine ⟨a.numbers.prod, b.numbers.prod, {
    left := coefficient_eq hal
    right := coefficient_eq hbl
    mul := by rw [coefficient_eq (Over.mul hal hbl), prod_numbers_mul hal hbl]
    gcd := by rw [coefficient_eq (Over.gcd hal), prod_numbers_gcd hal hbl]
    lcm := by rw [coefficient_eq (Over.lcm hal hbl), prod_numbers_lcm hal hbl]
    divides_iff := divides_iff_dvd hal hbl
    div := fun hdivides => ?_
    beq_iff := beq_iff_eq_prod hal hbl
    toNumber := fun haconstant hbconstant =>
      ⟨toNumber_eq hal haconstant, toNumber_eq hbl hbconstant⟩
    add := fun haconstant hbconstant hshort => ?_
    add_tooLarge := fun haconstant hbconstant ⟨p, hp, hdvd, hlong⟩ => ?_ }⟩
  · have hstrike := prod_numbers_strike hal hbl hdivides
    have hquotient : (b.strike a).numbers.prod = b.numbers.prod / a.numbers.prod :=
      Nat.eq_div_of_mul_eq_left (prod_numbers_ne_zero hal) hstrike
    exact ⟨b.strike a, div_eq_ok_iff.mpr ⟨Monomial.divides_iff.mp hdivides, rfl⟩,
      by rw [coefficient_eq (Over.strike hbl a), hquotient]⟩
  · obtain ⟨sum, hsum, hconstant, hprod⟩ := exists_ofNumber hpos fun p hp hdvd =>
      Numeral.isWritable_iff_length.mpr (hshort p hp hdvd)
    refine ⟨sum, (add_eq hal hbl haconstant hbconstant).trans hsum, ?_⟩
    rw [toNumber_eq (legible_of_ofNumber hsum) hconstant, hprod]
  · rw [add_eq hal hbl haconstant hbconstant]
    refine ofNumber_eq_error hpos hp hdvd (Bool.eq_false_iff.mpr fun hwritable => ?_)
    exact Nat.not_le.mpr hlong (Numeral.isWritable_iff_length.mp hwritable)

theorem derived_calculates_two_twelve :
    ∃ a b, parse "2" = .ok a ∧ parse "2*3*2" = .ok b ∧ a.Derived ∧ b.Derived ∧
      ∃ m n, Calculates a b m n := by
  have hfirst : (parse "2").isOk = true := by decide +kernel
  have hsecond : (parse "2*3*2").isOk = true := by decide +kernel
  obtain ⟨a, ha⟩ := Except.isOk_iff.mp hfirst
  obtain ⟨b, hb⟩ := Except.isOk_iff.mp hsecond
  exact ⟨a, b, ha, hb, .parse ha, .parse hb, derived_calculates (.parse ha) (.parse hb)⟩

/-- There are primes just above the numbers that can be written. -/
theorem exists_unwritable_prime : ∃ k, 0 < k ∧ Numeral.isWritable k = true ∧
    (2 * k + 1).Prime ∧ Numeral.isWritable (2 * k + 1) = false := by
  have hlimit : 1 < 10 ^ Numeral.maxDigits := Nat.one_lt_pow (by decide) (by decide)
  -- A prime up to twice the limit is odd, so half of its predecessor is below the limit.
  obtain ⟨p, hp, hlt, hle⟩ :=
    Nat.exists_prime_lt_and_le_two_mul (10 ^ Numeral.maxDigits) (by omega)
  obtain ⟨k, rfl⟩ := hp.odd_of_ne_two (by omega)
  refine ⟨k, by omega, Numeral.isWritable_iff.mpr (by omega), hp, ?_⟩
  exact Bool.eq_false_iff.mpr fun h => by have := Numeral.isWritable_iff.mp h; omega

/-- Constants do not always have a sum: it may have a prime factor that cannot be written. -/
theorem sum_may_be_missing :
    ¬ ∀ a b : Monomial, a.Derived → b.Derived → a.isConstant = true → b.isConstant = true →
      ∃ m n sum, a.toNumber = .ok m ∧ b.toNumber = .ok n ∧ a.add b = .ok sum ∧
        sum.toNumber = .ok (m + n) := by
  intro h
  obtain ⟨k, hk, hwritable, hprime, hunwritable⟩ := exists_unwritable_prime
  have htwo : Numeral.isWritable 2 = true := Numeral.isWritable_iff_length.mpr (by decide)
  have hfactors : ∀ p : Nat, p.Prime → p ∣ 2 * k → Numeral.isWritable p = true := by
    intro p hp hdvd
    obtain hdvd | hdvd := hp.dvd_mul.mp hdvd
    · exact Numeral.isWritable_of_le (Nat.le_of_dvd (by decide) hdvd) htwo
    · exact Numeral.isWritable_of_le (Nat.le_of_dvd hk hdvd) hwritable
  obtain ⟨a, ha, hconstant, hprod⟩ := exists_ofNumber (by omega) hfactors
  have hlegible := legible_of_ofNumber ha
  obtain ⟨_, _, sum, -, -, hsum, -⟩ := h a one (.ofNumber ha) .one hconstant rfl
  rw [add_eq hlegible Over.one hconstant rfl, hprod,
    show one.numbers.prod = 1 from rfl, ofNumber_eq_error (by omega) hprime dvd_rfl hunwritable]
    at hsum
  cases hsum

end Dataflow.Monomial
