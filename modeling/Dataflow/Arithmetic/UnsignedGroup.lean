import Dataflow.Arithmetic.Power

namespace Dataflow.Arithmetic

/-- The distance of two numbers. -/
def distance (a b : Nat) : Nat :=
  if a < b then b - a else a - b

/-- Operations on the elements of a group that are known up to sign. Two of them can be added when
their difference is known. The elements are given modulo a number `n`. -/
structure UnsignedGroup (α : Type) where
  /-- Twice an element. -/
  double : α → α
  /-- The sum of two elements, when their difference is known. -/
  add : α → α → α → α
  /-- A number that a divisor of `n` divides if modulo it an element is neutral. -/
  size : α → Nat
  /-- Numbers for some elements. Two of the numbers are equal modulo a divisor of `n` if modulo it
  their elements are equal or opposite. -/
  coordinates : List α → List Nat

namespace UnsignedGroup

variable {α : Type} (G : UnsignedGroup α)

/-- A positive multiple of an element, by a pair of neighbouring multiples. -/
def multiple (p : α) (k : Nat) : α :=
  ((binaryDigits k.log2 k).foldl
    (fun (pair : α × α) bit =>
      let between := G.add pair.1 pair.2 p
      if bit then (between, G.double pair.2) else (G.double pair.1, between))
    (p, G.double p)).1

/-- Elements one step apart, of which the first two are given. -/
def progression (step : α) : (count : Nat) → (first second : α) → List α
  | 0, _, _ => []
  | count + 1, first, second =>
    first :: progression step count second (G.add second step first)

/-- The product of all distances between two lists of numbers, modulo `n`. -/
def distanceProduct (n : Nat) (as bs : List Nat) : Nat :=
  as.foldl (fun product a => bs.foldl (fun product b => product * distance a b % n) product) 1

/-- How many times the bound for one further prime exceeds the bound for the others. -/
def reach : Nat := 50

/-- The length of a giant step from a bound on: a number with many small divisors. -/
def stepLength (bound : Nat) : Nat :=
  if bound < 2000 then 210 else 2310

/-- The odd multiples of an element up to half a giant step, without those that share a divisor with
its length. -/
def babySteps (length : Nat) (p : α) : List α :=
  let two := G.double p
  ((G.progression two (length / 4 + 1) p (G.add two p p)).zipIdx.filter fun (_, i) =>
    Nat.gcd (2 * i + 1) length = 1).map Prod.fst

/-- The multiples of an element by giant steps beyond a bound. -/
def giantSteps (length bound : Nat) (p : α) : List α :=
  let start := bound / length + 1
  G.progression (G.multiple p length) (reach * bound / length) (G.multiple p (start * length))
    (G.multiple p ((start + 1) * length))

/-- A divisor of `n`. It is not one if modulo some divisor of `n` the order of the element is made
of primes below `bound` and at most one larger prime within reach. -/
def orderDivisor (n bound : Nat) (primes : List Nat) (p : α) : Nat :=
  let p := primes.foldl (fun p k => G.multiple p (Nat.pow k (bound.log2 / k.log2))) p
  let shared := Nat.gcd (G.size p) n
  if shared ≠ 1 then shared
  else
    let babies := G.babySteps (stepLength bound) p
    let coordinates := G.coordinates (babies ++ G.giantSteps (stepLength bound) bound p)
    Nat.gcd
      (distanceProduct n (coordinates.drop babies.length) (coordinates.take babies.length)) n

end UnsignedGroup

end Dataflow.Arithmetic
