import Dataflow.Arithmetic.Root

namespace Dataflow.Arithmetic

/-- Whether `d` divides `n` and is neither one nor `n`. -/
def isProperDivisor (n d : Nat) : Bool :=
  1 < d && d < n && n % d == 0

/-- A row of the scheme: the two coefficients, and the remainder of the combination. -/
structure SchemeRow where
  a : Nat
  b : Nat
  c : Nat

/-- Whether a divisor belongs to the combination `x * a - y * b = v`. -/
def splitsByDifference (n s t : Nat) (row : SchemeRow) (v : Int) : Bool :=
  let difference : Int := v * s + row.a - row.b * t
  let sum : Int := root 2 (difference.natAbs * difference.natAbs + 4 * row.a * row.b * n)
  isProperDivisor n (((sum + difference) / 2).toNat / row.a) ||
    isProperDivisor n (((sum - difference) / 2).toNat / row.b)

/-- Whether a divisor belongs to the combination `x * a + y * b = v`. -/
def splitsBySum (n s t : Nat) (row : SchemeRow) (v : Nat) : Bool :=
  let sum := v * s + row.a + row.b * t
  let product := 4 * row.a * row.b * n
  if sum * sum < product then false
  else
    let difference := root 2 (sum * sum - product)
    isProperDivisor n ((sum + difference) / 2 / row.a) ||
      isProperDivisor n ((sum - difference) / 2 / row.a)

/-- Whether a divisor belongs to an even row, where the combination is a difference of less than `s`
either way. -/
def splitsAtEven (n s t : Nat) (row : SchemeRow) : Bool :=
  splitsByDifference n s t row row.c || splitsByDifference n s t row (row.c - s)

/-- Whether a divisor belongs to an odd row, where the combination is a sum between `2 * a * b` and
`a * b + n / s²`. -/
def splitsAtOdd (n s t : Nat) (row : SchemeRow) : Bool :=
  let least := 2 * row.a * row.b
  let v := least + (row.c + (s - least % s)) % s
  decide (v ≤ row.a * row.b + n / (s * s)) && splitsBySum n s t row v

/-- Whether a divisor belongs to one of the rows from an even and an odd one on. When the fuel runs
out the question stays open, and the answer is yes. -/
def splitsFrom (n s t : Nat) : (fuel : Nat) → (even odd : SchemeRow) → Bool
  | 0, _, _ => true
  | fuel + 1, even, odd =>
    if splitsAtEven n s t even then true
    else if even.a = 0 then false
    else if splitsAtOdd n s t odd then true
    else
      let q := even.a / odd.a
      let even : SchemeRow :=
        ⟨even.a - q * odd.a, even.b + q * odd.b, (even.c + (s - q * odd.c % s)) % s⟩
      if even.a = 0 then splitsAtEven n s t even
      else
        let q := (odd.a - 1) / even.a
        splitsFrom n s t fuel even
          ⟨odd.a - q * even.a, odd.b + q * even.b, (odd.c + (s - q * even.c % s)) % s⟩

/-- Whether `n` may be a product of two numbers above one of which the first leaves the remainder
one modulo `s`. No such product is missed if `s * s * s` exceeds `n`. For factors `x * s + 1` and `y
* s + t` the combinations `x * a ± y * b` are known modulo `s` in every row of the Euclidean scheme
of `s` and `t`, and in one of the rows the combination is so small that its remainder determines it.
A quadratic equation then gives the factors. -/
def mayFactorWithUnit (n s : Nat) : Bool :=
  if n ≤ s then false
  else
    let t := n % s
    splitsFrom n s t (2 * s.log2 + 4) ⟨s, 0, 0⟩ ⟨t, 1, (n - t) / s % s⟩

end Dataflow.Arithmetic
