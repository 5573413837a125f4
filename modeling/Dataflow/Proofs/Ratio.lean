import Dataflow.Proofs.Monomial.Positive
import Dataflow.Ratio

namespace Dataflow

theorem Monomial.isOne_iff {m : Monomial} : m.isOne = true ↔ ∀ key, m.power key = 0 := by
  rw [isOne, List.isEmpty_iff]
  constructor
  · intro h key
    simp [power, Factors.power, h]
  · intro h
    rw [List.eq_nil_iff_forall_not_mem]
    intro entry hentry
    have hpower : m.power entry.1 = entry.2 := Factors.power_of_mem hentry
    have hpos := m.factors.pos_of_mem entry hentry
    rw [h] at hpower
    omega

namespace Ratio

/-- Ratios are brought to lowest terms by exact divisions. -/
theorem of_exact (a b : Monomial) : a.div (a.gcd b) = .ok (of a b).numerator ∧
    b.div (a.gcd b) = .ok (of a b).denominator := by
  have hleft : ∀ key, (a.gcd b).power key ≤ a.power key := fun key => by
    rw [Monomial.power_gcd]
    omega
  have hright : ∀ key, (a.gcd b).power key ≤ b.power key := fun key => by
    rw [Monomial.power_gcd]
    omega
  exact ⟨Monomial.div_eq_ok_iff.mpr ⟨hleft, rfl⟩, Monomial.div_eq_ok_iff.mpr ⟨hright, rfl⟩⟩

/-- How often a divisor occurs, the occurrences in the denominator counted off. -/
def exponent (r : Ratio) (key : String) : Int :=
  r.numerator.power key - r.denominator.power key

variable {a b r : Ratio} {key : String}

theorem power_numerator : r.numerator.power key = (r.exponent key).toNat := by
  have hcoprime := r.coprime key
  unfold exponent
  omega

theorem power_denominator : r.denominator.power key = (-r.exponent key).toNat := by
  have hcoprime := r.coprime key
  unfold exponent
  omega

@[simp]
theorem exponent_of (m n : Monomial) :
    (of m n).exponent key = (m.power key : Int) - n.power key := by
  simp only [exponent, of, Monomial.power_strike, Monomial.power_gcd]
  omega

@[simp]
theorem exponent_ofMonomial (m : Monomial) : (ofMonomial m).exponent key = m.power key := by
  simp [ofMonomial]

@[simp]
theorem exponent_one : one.exponent key = 0 := by
  simp [one]

@[simp]
theorem exponent_mul : (a * b).exponent key = a.exponent key + b.exponent key := by
  show (of _ _).exponent key = _
  rw [exponent_of, Monomial.power_mul, Monomial.power_mul]
  unfold exponent
  omega

@[simp]
theorem exponent_div : (a / b).exponent key = a.exponent key - b.exponent key := by
  show (of _ _).exponent key = _
  rw [exponent_of, Monomial.power_mul, Monomial.power_mul]
  unfold exponent
  omega

theorem beq_iff : (a == b) = true ↔ ∀ key, a.exponent key = b.exponent key := by
  have hbeq : (a == b) = (a.numerator == b.numerator && a.denominator == b.denominator) := rfl
  rw [hbeq, Bool.and_eq_true, Monomial.beq_iff, Monomial.beq_iff]
  constructor
  · rintro ⟨hnumerator, hdenominator⟩ key
    rw [exponent, exponent, hnumerator, hdenominator]
  · intro h
    constructor
    · intro key
      rw [power_numerator, power_numerator, h]
    · intro key
      rw [power_denominator, power_denominator, h]

theorem isOne_iff : r.isOne = true ↔ ∀ key, r.exponent key = 0 := by
  rw [isOne, Bool.and_eq_true, Monomial.isOne_iff, Monomial.isOne_iff]
  constructor
  · rintro ⟨hnumerator, hdenominator⟩ key
    rw [exponent, hnumerator, hdenominator]
    rfl
  · intro h
    constructor
    · intro key
      rw [power_numerator, h]
      rfl
    · intro key
      rw [power_denominator, h]
      rfl

/-- A ratio that is a monomial has no negative exponents, and keeps its exponents. -/
theorem collapse_eq_ok {m : Monomial} (h : r.collapse = .ok m) (key : String) :
    (m.power key : Int) = r.exponent key := by
  unfold collapse at h
  split at h
  · rename_i hone
    cases h
    rw [exponent, Monomial.isOne_iff.mp hone]
    simp
  · obtain ⟨text, -, h⟩ := Except.bind_eq_ok_iff.mp h
    cases h

theorem exists_collapse (h : ∀ key, 0 ≤ r.exponent key) : ∃ m, r.collapse = .ok m := by
  have hone : r.denominator.isOne = true := Monomial.isOne_iff.mpr fun key => by
    have hexponent := h key
    rw [power_denominator]
    omega
  exact ⟨r.numerator, if_pos hone⟩

section Positive

/-- No part has the divisor zero. -/
def Positive (r : Ratio) : Prop :=
  r.numerator.Positive ∧ r.denominator.Positive

namespace Positive

theorem of {m n : Monomial} (hm : m.Positive) (hn : n.Positive) : (Ratio.of m n).Positive :=
  ⟨hm.strike _, hn.strike _⟩

theorem ofMonomial {m : Monomial} (hm : m.Positive) : (Ratio.ofMonomial m).Positive :=
  of hm .one

theorem one : Ratio.one.Positive :=
  ofMonomial .one

theorem mul (ha : a.Positive) (hb : b.Positive) : (a * b).Positive :=
  of (ha.1.mul hb.1) (ha.2.mul hb.2)

end Positive

end Positive

end Ratio

end Dataflow
