import Dataflow.Arithmetic.TrialDivision

namespace Dataflow.Arithmetic

/-- Complete a root whose higher digits are known by `bits` more binary digits. -/
def rootDigits (k n : Nat) : (bits root : Nat) → Nat
  | 0, root => root
  | bits + 1, root =>
    let next := root + Nat.pow 2 bits
    if Nat.pow next k ≤ n then rootDigits k n bits next else rootDigits k n bits root

/-- The largest number whose power `k` is at most `n`. -/
def root (k n : Nat) : Nat :=
  rootDigits k n (n.log2 / k + 1) 0

/-- The number of binary digits that a base needs to be looked for. -/
def minBaseDigits : Nat := 15

/-- A base and an exponent above one whose power is `n`. Bases that trial division finds are left to
it. -/
def perfectPower? (n : Nat) : Option (Nat × Nat) :=
  (primesBelow (n.log2 / minBaseDigits + 1)).findSome? fun k =>
    let base := root k n
    if Nat.pow base k = n then some (base, k) else none

/-- How far the mean of two factors may lie above the root of their product to be found. -/
def closeTrials : Nat := 4

/-- A factor of `n` whose cofactor is close to it: then `n` is a difference of two squares, the
larger one close above it. -/
def closeFactor? (n : Nat) : Option Nat :=
  let least := root 2 n
  (List.range closeTrials).findSome? fun i =>
    let mean := least + i
    let distance := root 2 (mean * mean - n)
    if n + distance * distance = mean * mean then some (mean - distance) else none

end Dataflow.Arithmetic
