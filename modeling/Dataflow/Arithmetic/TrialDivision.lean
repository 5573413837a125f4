namespace Dataflow.Arithmetic

/-- The next candidate: after two, the odd numbers. -/
def nextCandidate (k : Nat) : Nat :=
  if k = 2 then 3 else k + 2

/-- Divide `n` by the candidates from `k` on, in at most `fuel` trials. The answer holds the
divisors found, the cofactor and the first candidate that was not ruled out. -/
def trialDivision : (fuel k n : Nat) → List Nat × Nat × Nat
  | 0, k, n => ([], n, k)
  | fuel + 1, k, n =>
    if n < k * k then ([], n, k)
    else if n % k = 0 then
      let (divisors, cofactor, next) := trialDivision fuel k (n / k)
      (k :: divisors, cofactor, next)
    else trialDivision fuel (nextCandidate k) n

/-- Trial division to the end. A candidate never exceeds the cofactor, and their distance shrinks
with every trial, so `n` trials are enough. -/
def fullDivision (k n : Nat) : List Nat :=
  let (divisors, cofactor, _) := trialDivision n k n
  if cofactor = 1 then divisors else divisors ++ [cofactor]

/-- Which numbers below a bound are products of two smaller ones above one. -/
def sieve (bound : Nat) : Array Bool :=
  (List.range bound).foldl
    (fun composite k =>
      if k < 2 || bound ≤ k * k || composite.getD k true then composite
      else
        (List.range ((bound - 1) / k + 1 - k)).foldl
          (fun composite m => composite.setIfInBounds (k * (k + m)) true) composite)
    (Array.replicate bound false)

/-- The primes below a bound, in ascending order. -/
def primesBelow (bound : Nat) : List Nat :=
  let composite := sieve bound
  (List.range bound).filter fun k => 2 ≤ k && !composite.getD k true

end Dataflow.Arithmetic
