import Dataflow.Proofs.Balance.Totality

namespace Dataflow

open Text

namespace Monomial

variable {a b : Monomial}

/-- Nothing of a monomial is left when more is struck out than it has. -/
theorem isOne_strike_iff : (a.strike b).isOne = true ↔ a.divides b = true := by
  rw [isOne_iff, divides_iff]
  exact forall_congr' fun key => by rw [power_strike]; exact Nat.sub_eq_zero_iff_le

/-- What is struck out matters only by its powers. -/
theorem strike_congr {c : Monomial} (h : (b == c) = true) : a.strike b = a.strike c := by
  have hpowers : b.factors.power = c.factors.power := funext (beq_iff.mp h)
  rw [strike, strike, Factors.diff, Factors.diff, hpowers]

/-- A divisor is the greatest common divisor. -/
theorem gcd_beq (h : b.divides a = true) : (a.gcd b == b) = true :=
  beq_iff.mpr fun key => by
    rw [power_gcd]
    exact Nat.min_eq_right (divides_iff.mp h key)

end Monomial

namespace Ratio

section Laws

variable (a b c d : Monomial) (f g h : Ratio)

private theorem gcd_isOne : (f.numerator.gcd f.denominator).isOne = true :=
  Monomial.isOne_iff.mpr fun key => by
    rw [Monomial.power_gcd, Nat.min_eq_zero_iff]
    exact f.coprime key

/-- Ratios are equal when their cross products are. -/
theorem of_beq_of : (of a b == of c d) = true ↔ (a * d == c * b) = true := by
  rw [beq_iff, Monomial.beq_iff]
  refine forall_congr' fun key => ?_
  rw [exponent_of, exponent_of, Monomial.power_mul, Monomial.power_mul]
  omega

private theorem of_mul_of : (of a b * of c d == of (a * c) (b * d)) = true :=
  beq_iff.mpr fun key => by
    rw [exponent_mul, exponent_of, exponent_of, exponent_of, Monomial.power_mul,
      Monomial.power_mul]
    omega

private theorem of_div_of : (of a b / of c d == of (a * d) (b * c)) = true :=
  beq_iff.mpr fun key => by
    rw [exponent_div, exponent_of, exponent_of, exponent_of, Monomial.power_mul,
      Monomial.power_mul]
    omega

private theorem mul_assoc : (f * g * h == f * (g * h)) = true :=
  beq_iff.mpr fun key => by simp only [exponent_mul, Int.add_assoc]

private theorem mul_comm : (f * g == g * f) = true :=
  beq_iff.mpr fun key => by rw [exponent_mul, exponent_mul, Int.add_comm]

private theorem one_mul : (one * f == f) = true :=
  beq_iff.mpr fun key => by rw [exponent_mul, exponent_one, Int.zero_add]

private theorem mul_div_cancel : (f * g / g == f) = true :=
  beq_iff.mpr fun key => by rw [exponent_div, exponent_mul, Int.add_sub_cancel]

private theorem div_self : (f / f).isOne = true :=
  isOne_iff.mpr fun key => by rw [exponent_div, Int.sub_self]

end Laws

section Collapse

variable {a b : Monomial}

private theorem isOne_denominator_iff : (of a b).denominator.isOne = true ↔ b.divides a = true :=
  Monomial.isOne_strike_iff.trans
    (Monomial.divides_gcd_iff.trans (and_iff_left (Monomial.divides_refl b)))

/-- A ratio with the denominator one collapses to the exact quotient. -/
theorem collapse_of_divides (h : b.divides a = true) : (of a b).collapse = a.div b := by
  rw [collapse, if_pos (isOne_denominator_iff.mpr h), Monomial.div_of_divides h]
  exact congrArg Except.ok (Monomial.strike_congr (Monomial.gcd_beq h))

/-- A ratio that does not collapse fails with its text. -/
theorem collapse_of_not_divides (h : b.divides a = false) :
    (of a b).collapse = (of a b).render >>= fun text => .error (.unintegral text) := by
  have hdenominator : ¬ (of a b).denominator.isOne = true := fun hone =>
    Bool.eq_false_iff.mp h (isOne_denominator_iff.mp hone)
  rw [collapse, if_neg hdenominator]
  rfl

end Collapse

/-- What calculating with ratios comes to, for monomials `a`, `b`, `c` and `d` and for ratios `f`,
`g` and `h`. -/
structure Lawful (a b c d : Monomial) (f g h : Ratio) : Prop where
  numerator : a.div (a.gcd b) = .ok (of a b).numerator
  denominator : b.div (a.gcd b) = .ok (of a b).denominator
  coprime : ((of a b).numerator.gcd (of a b).denominator).isOne = true
  beq_iff : (of a b == of c d) = true ↔ (a * d == c * b) = true
  mul : (of a b * of c d == of (a * c) (b * d)) = true
  div : (of a b / of c d == of (a * d) (b * c)) = true
  assoc : (f * g * h == f * (g * h)) = true
  comm : (f * g == g * f) = true
  unit : (one * f == f) = true
  cancel : (f * g / g == f) = true
  inverse : (f / f).isOne = true
  /-- A ratio of a multiple collapses to the exact quotient. -/
  whole : b.divides a = true →
    (of a b).collapse = a.div b ∧ ∃ quotient, a.div b = .ok quotient
  /-- Otherwise `collapse` fails with the text of the ratio, -/
  refused : b.divides a = false → ∀ text, (of a b).render = .ok text →
    (of a b).collapse = .error (.unintegral text)
  /-- and if the text cannot be written, with the failure to write it. -/
  untold : b.divides a = false → ∀ e, (of a b).render = .error e → (of a b).collapse = .error e
  /-- Ratios of what was parsed have a text if both parts are short enough to be written. Otherwise
  a number is too large, or a parameter occurs too often. -/
  telling : a.Legible → b.Legible →
    ((∃ text, (of a b).render = .ok text) ↔ (of a b).IsShort) ∧
      ∀ e, (of a b).render = .error e → e = .numberTooLarge ∨ e = .repetitionTooLong

/-- Ratios of any monomials are in lowest terms, form an abelian group under the operations, and
`collapse` returns the exact quotient when there is one and fails otherwise. -/
theorem lawful (a b c d : Monomial) (f g h : Ratio) : Lawful a b c d f g h where
  numerator := (of_exact a b).1
  denominator := (of_exact a b).2
  coprime := gcd_isOne (of a b)
  beq_iff := of_beq_of a b c d
  mul := of_mul_of a b c d
  div := of_div_of a b c d
  assoc := mul_assoc f g h
  comm := mul_comm f g
  unit := one_mul f
  cancel := mul_div_cancel f g
  inverse := div_self f
  whole := fun hdivides =>
    ⟨collapse_of_divides hdivides, _, Monomial.div_of_divides hdivides⟩
  refused := fun hdivides text htext => by
    rw [collapse_of_not_divides hdivides, htext]
    rfl
  untold := fun hdivides e he => by
    rw [collapse_of_not_divides hdivides, he]
    rfl
  telling := fun ha hb =>
    have hlegible : (of a b).Legible := .of ha hb
    ⟨hlegible.exists_render_iff, fun _ => hlegible.render_eq_error⟩

/-- One over a constant that is too large to be written does not collapse, and has no text for the
failure. -/
theorem collapse_one_over {m : Monomial} (hm : m.Legible) (hconstant : m.isConstant = true)
    (hlarge : Numeral.isWritable m.numbers.prod = false) :
    m.divides .one = false ∧ (of .one m).collapse = .error .numberTooLarge := by
  have hdivides : m.divides .one = false := by
    refine Bool.eq_false_iff.mpr fun hone => ?_
    have hunit := Monomial.isOne_iff.mpr fun key =>
      Nat.eq_zero_of_le_zero (Monomial.divides_iff.mp hone key)
    rw [Monomial.prod_numbers_of_isOne hunit, Monomial.isWritable_one] at hlarge
    cases hlarge
  have hnumerator : ((of .one m).numerator == .one) = true :=
    Monomial.beq_iff.mpr fun key => by simp [of]
  have hdenominator : ((of .one m).denominator == m) = true :=
    Monomial.beq_iff.mpr fun key => by simp [of]
  have hratio : (of .one m).Legible := .of .one hm
  have hone : Monomial.one.render = .ok "1" := by decide +kernel
  have hrender : m.render = .error .numberTooLarge := by
    rw [Monomial.render_eq hm, if_pos (Monomial.spellable_of_isConstant hconstant),
      if_neg (Bool.eq_false_iff.mp hlarge)]
  refine ⟨hdivides, ?_⟩
  rw [collapse_of_not_divides hdivides, render, Monomial.render_congr hratio.1 .one hnumerator,
    Monomial.render_congr hratio.2 hm hdenominator, hone, hrender]
  rfl

/-- `collapse` need not fail with the ratio: one over the square of a number that can be written may
be too large to be written into the failure. -/
theorem refusal_untold : ∃ x, Monomial.parse Workspace.steep.repr = .ok x ∧
    (x * x).divides .one = false ∧ (of .one (x * x)).collapse = .error .numberTooLarge := by
  obtain ⟨x, hx, hconstant, hprod⟩ :=
    Monomial.exists_parse_repr Workspace.steep_pos Workspace.isWritable_steep
  have hlegible : x.Legible := Monomial.legible_of_parse hx
  refine ⟨x, hx, collapse_one_over (hlegible.mul hlegible)
    (Monomial.isConstant_mul hconstant hconstant) ?_⟩
  rw [Monomial.prod_numbers_mul hlegible hlegible, hprod]
  exact Workspace.not_isWritable_steep_mul

end Ratio

end Dataflow
