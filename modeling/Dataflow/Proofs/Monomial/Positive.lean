import Dataflow.Proofs.Arithmetic.PrimeFactors
import Dataflow.Proofs.Monomial.Divisors

namespace Dataflow

open Text

namespace Factors

/-- No divisor is a numeral for zero. -/
def Positive (f : Factors) : Prop :=
  ∀ key, 0 < f.power key → isNumeral key = true → 0 < Numeral.value key

end Factors

namespace Monomial

/-- No divisor is a numeral for zero. -/
def Positive (m : Monomial) : Prop :=
  m.factors.Positive

private theorem positive_iff_over {m : Monomial} :
    m.Positive ↔ m.Over fun key => isNumeral key = true → 0 < Numeral.value key := Iff.rfl

namespace Positive

variable {a b : Monomial}

theorem one : Monomial.one.Positive :=
  positive_iff_over.mpr Over.one

theorem anti (ha : a.Positive) (hle : ∀ key, b.power key ≤ a.power key) : b.Positive :=
  positive_iff_over.mpr ((positive_iff_over.mp ha).anti hle)

theorem mul (ha : a.Positive) (hb : b.Positive) : (a * b).Positive :=
  positive_iff_over.mpr ((positive_iff_over.mp ha).mul (positive_iff_over.mp hb))

theorem strike (ha : a.Positive) (b : Monomial) : (a.strike b).Positive :=
  positive_iff_over.mpr ((positive_iff_over.mp ha).strike b)

end Positive

theorem positive_of_parse {text : String} {m : Monomial} (h : parse text = .ok m) :
    m.Positive := by
  refine positive_iff_over.mpr (over_of_parse ?_ ?_ h)
  · intro n hn p hp _ _
    rw [Numeral.value_repr]
    exact Arithmetic.pos_of_mem_primeFactors hn hp
  · intro token _ hnumeral _ hnumeral'
    rw [hnumeral] at hnumeral'
    cases hnumeral'

end Monomial

end Dataflow
