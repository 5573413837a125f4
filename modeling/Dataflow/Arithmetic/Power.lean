namespace Dataflow.Arithmetic

/-- The lowest `count` binary digits of a number, the highest first. -/
def binaryDigits : (count n : Nat) → List Bool
  | 0, _ => []
  | count + 1, n => n.testBit count :: binaryDigits count n

/-- A power for the product `mul` with the unit `one`, by repeated squaring. -/
def powBy {α : Type} (mul : α → α → α) (one base : α) (exponent : Nat) : α :=
  (binaryDigits (exponent.log2 + 1) exponent).foldl
    (fun power bit =>
      let square := mul power power
      if bit then mul square base else square)
    one

/-- A power modulo `n`. -/
def powMod (base exponent n : Nat) : Nat :=
  powBy (fun a b => a * b % n) (1 % n) base exponent

/-- A number with a multiple of a square root: `rational + irrational * √d`, where `d` is known from
the context. -/
structure Surd where
  rational : Nat
  irrational : Nat

namespace Surd

/-- The product modulo `n`. -/
def mulMod (d n : Nat) (a b : Surd) : Surd where
  rational := (a.rational * b.rational + d * (a.irrational * b.irrational % n)) % n
  irrational := (a.rational * b.irrational + a.irrational * b.rational) % n

/-- A power modulo `n`. -/
def powMod (d n : Nat) (base : Surd) (exponent : Nat) : Surd :=
  powBy (mulMod d n) ⟨1 % n, 0⟩ base exponent

end Surd

end Dataflow.Arithmetic
