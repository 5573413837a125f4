import Dataflow.Proofs.Monomial.Divisors

namespace Dataflow.Monomial

section Order

variable {a b c : Monomial}

theorem div_of_divides (h : b.divides a = true) : a.div b = .ok (a.strike b) :=
  div_eq_ok_iff.mpr ⟨divides_iff.mp h, rfl⟩

private theorem divides_iff_exists_div :
    a.divides b = true ↔ ∃ quotient, b.div a = .ok quotient := by
  constructor
  · exact fun h => ⟨b.strike a, div_of_divides h⟩
  · rintro ⟨quotient, h⟩
    exact divides_iff.mpr (div_eq_ok_iff.mp h).1

theorem divides_iff_exists : a.divides b = true ↔ ∃ factor, (b == a * factor) = true := by
  rw [divides_iff]
  constructor
  · intro h
    refine ⟨b.strike a, beq_iff.mpr fun key => ?_⟩
    have hle := h key
    rw [power_mul, power_strike]
    omega
  · rintro ⟨factor, h⟩ key
    have heq := beq_iff.mp h key
    rw [power_mul] at heq
    omega

/-- The quotient is the one factor that the divisor lacks. -/
theorem beq_mul_iff_of_div {quotient factor : Monomial} (h : b.div a = .ok quotient) :
    (b == a * factor) = true ↔ (factor == quotient) = true := by
  obtain ⟨hle, rfl⟩ := div_eq_ok_iff.mp h
  rw [beq_iff, beq_iff]
  refine forall_congr' fun key => ?_
  have hle := hle key
  rw [power_mul, power_strike]
  omega

private theorem div_mul_cancel {quotient : Monomial} (h : b.div a = .ok quotient) :
    (quotient * a == b) = true := by
  obtain ⟨hle, rfl⟩ := div_eq_ok_iff.mp h
  refine beq_iff.mpr fun key => ?_
  rw [power_mul, power_strike]
  exact Nat.sub_add_cancel (hle key)

/-- Monomials that divide each other are equal. -/
theorem beq_iff_divides : (a == b) = true ↔ a.divides b = true ∧ b.divides a = true := by
  rw [beq_iff, divides_iff, divides_iff, ← forall_and]
  exact forall_congr' fun key => Nat.le_antisymm_iff

/-- The common divisors are the divisors of the greatest one. -/
theorem divides_gcd_iff :
    c.divides (a.gcd b) = true ↔ c.divides a = true ∧ c.divides b = true := by
  rw [divides_iff, divides_iff, divides_iff, ← forall_and]
  exact forall_congr' fun key => by rw [power_gcd, Nat.le_min]

/-- The common multiples are the multiples of the least one. -/
theorem lcm_divides_iff :
    (a.lcm b).divides c = true ↔ a.divides c = true ∧ b.divides c = true := by
  rw [divides_iff, divides_iff, divides_iff, ← forall_and]
  exact forall_congr' fun key => by rw [power_lcm, Nat.max_le]

theorem divides_refl (a : Monomial) : a.divides a = true :=
  divides_iff.mpr fun _ => Nat.le_refl _

private theorem gcd_mul_lcm (a b : Monomial) : (a.gcd b * a.lcm b == a * b) = true :=
  beq_iff.mpr fun key => by
    rw [power_mul, power_mul, power_gcd, power_lcm]
    omega

end Order

/-- How the monomials `a`, `b` and `c` lie to each other in the order of divisibility. -/
structure InLattice (a b c : Monomial) : Prop where
  /-- A divisor is one that leaves a quotient. -/
  divides_iff_div : a.divides b = true ↔ ∃ quotient, b.div a = .ok quotient
  /-- A divisor is one that lacks only a factor. -/
  divides_iff_factor : a.divides b = true ↔ ∃ factor, (b == a * factor) = true
  /-- The quotient is that factor, and there is no other. -/
  quotient : ∀ quotient, b.div a = .ok quotient → (quotient * a == b) = true ∧
    ∀ factor, (b == a * factor) = true ↔ (factor == quotient) = true
  gcd_left : (a.gcd b).divides a = true
  gcd_right : (a.gcd b).divides b = true
  gcd_greatest : c.divides a = true → c.divides b = true → c.divides (a.gcd b) = true
  /-- The division that the least common multiple is made by is never refused. -/
  lcm_made : ∃ rest, a.div (a.gcd b) = .ok rest ∧ a.lcm b = rest * b
  left_lcm : a.divides (a.lcm b) = true
  right_lcm : b.divides (a.lcm b) = true
  lcm_least : a.divides c = true → b.divides c = true → (a.lcm b).divides c = true
  gcd_mul_lcm : (a.gcd b * a.lcm b == a * b) = true

/-- Under divisibility monomials are a lattice with `gcd` and `lcm`, up to equality, and `div`
returns the factor by which a divisor is multiplied. -/
theorem divisibility_lattice (a b c : Monomial) : InLattice a b c where
  divides_iff_div := divides_iff_exists_div
  divides_iff_factor := divides_iff_exists
  quotient := fun _ h => ⟨div_mul_cancel h, fun _ => beq_mul_iff_of_div h⟩
  gcd_left := (divides_gcd_iff.mp (divides_refl _)).1
  gcd_right := (divides_gcd_iff.mp (divides_refl _)).2
  gcd_greatest := fun ha hb => divides_gcd_iff.mpr ⟨ha, hb⟩
  lcm_made := lcm_exact a b
  left_lcm := (lcm_divides_iff.mp (divides_refl _)).1
  right_lcm := (lcm_divides_iff.mp (divides_refl _)).2
  lcm_least := fun ha hb => lcm_divides_iff.mpr ⟨ha, hb⟩
  gcd_mul_lcm := gcd_mul_lcm a b

end Dataflow.Monomial
