import Dataflow.Monomial

namespace Dataflow

/-- A ratio whose two parts share no divisor. -/
structure Ratio where
  numerator : Monomial
  denominator : Monomial
  coprime : ∀ key, numerator.power key = 0 ∨ denominator.power key = 0

namespace Ratio

/-- The ratio of two monomials, reduced by their greatest common divisor. -/
def of (a b : Monomial) : Ratio where
  numerator := a.strike (a.gcd b)
  denominator := b.strike (a.gcd b)
  coprime := by
    intro key
    rw [Monomial.power_strike, Monomial.power_strike, Monomial.power_gcd]
    omega

/-- A monomial over one. -/
def ofMonomial (m : Monomial) : Ratio :=
  of m .one

/-- One over one. -/
def one : Ratio :=
  ofMonomial .one

/-- Read a monomial as a ratio. -/
def parse (text : String) : Except Failure Ratio :=
  ofMonomial <$> Monomial.parse text

/-- Ratios in lowest terms are equal when both parts are. -/
instance : BEq Ratio where
  beq a b := a.numerator == b.numerator && a.denominator == b.denominator

/-- Whether both parts are one. -/
def isOne (r : Ratio) : Bool :=
  r.numerator.isOne && r.denominator.isOne

/-- The product. -/
def mul (a b : Ratio) : Ratio :=
  of (a.numerator * b.numerator) (a.denominator * b.denominator)

/-- The quotient. -/
def div (a b : Ratio) : Ratio :=
  of (a.numerator * b.denominator) (a.denominator * b.numerator)

instance : Mul Ratio where
  mul := mul

instance : Div Ratio where
  div := div

/-- The two parts with a slash between, in round brackets. -/
def render (r : Ratio) : Except Failure String := do
  return "(" ++ (← r.numerator.render) ++ "/" ++ (← r.denominator.render) ++ ")"

/-- How a ratio is shown among other values. -/
def inspect (r : Ratio) : Except Failure String := do
  return "Fraction" ++ (← r.render)

/-- The monomial that a ratio is when its denominator is one. -/
def collapse (r : Ratio) : Except Failure Monomial :=
  if r.denominator.isOne then return r.numerator
  else do throw (.unintegral (← r.render))

end Ratio

end Dataflow
