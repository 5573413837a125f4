import Dataflow.Arithmetic.Divisor
import Dataflow.Arithmetic.Primality

namespace Dataflow.Arithmetic

/-- How many trials are always made. -/
def smallTrials : Nat := 16500

/-- Some prime factors of a number, and factors that are neither split nor proved to be primes. -/
structure PartialFactors where
  primes : List Nat
  others : List Nat

namespace PartialFactors

/-- What trial division finds out. -/
def ofTrials (n : Nat) : PartialFactors :=
  let (divisors, cofactor, next) := trialDivision smallTrials 2 n
  if cofactor = 1 then ⟨divisors.eraseDups, []⟩
  else if cofactor < next * next then ⟨(divisors ++ [cofactor]).eraseDups, []⟩
  else ⟨divisors.eraseDups, [cofactor]⟩

/-- Split the numbers of a list, or prove them to be primes, as far as an effort goes. -/
def split (prove : Nat → Bool) (effort : Effort) :
    (fuel : Nat) → (numbers : List Nat) → PartialFactors → PartialFactors
  | 0, numbers, found => ⟨found.primes, numbers ++ found.others⟩
  | _ + 1, [], found => found
  | fuel + 1, n :: numbers, found =>
    if isProbablePrime n then
      if found.primes.contains n then split prove effort fuel numbers found
      else if prove n then split prove effort fuel numbers ⟨n :: found.primes, found.others⟩
      else split prove effort fuel numbers ⟨found.primes, n :: found.others⟩
    else
      match perfectPower? n with
      | some (base, _) => split prove effort fuel (base :: numbers) found
      | none =>
        match effort.properDivisor? n with
        | some d => split prove effort fuel (d :: n / d :: numbers) found
        | none => split prove effort fuel numbers ⟨found.primes, n :: found.others⟩

/-- Find out more by an effort. -/
def refine (prove : Nat → Bool) (effort : Effort) (found : PartialFactors) : PartialFactors :=
  split prove effort (2 * (found.others.foldl (· + ·.log2) 0) + found.others.length) found.others
    ⟨found.primes, []⟩

end PartialFactors

/-- Whether growing efforts on the neighbours of `n` prove it to be a prime. Factors of the
neighbours are proved to be primes by `prove`, whose first argument is the number of efforts that it
may make: the smaller ones, since it may be easier to find further factors. -/
def climb (prove : Nat → Nat → Bool) (n : Nat) :
    (rank : Nat) → List Effort → (lower upper : PartialFactors) → Bool
  | _, [], lower, upper => certifies n lower.primes upper.primes
  | rank, effort :: efforts, lower, upper =>
    certifies n lower.primes upper.primes ||
      (let lower := lower.refine (prove rank) effort
       certifies n lower.primes upper.primes ||
        climb prove n (rank + 1) efforts lower (upper.refine (prove rank) effort))

/-- Whether a number that behaves like a prime is proved to be one by some of the efforts. Each
factor of a neighbour that has to be proved a prime in turn has at least one binary digit less, so
`n.log2` levels are enough. Where the neighbour below has enough small factors, the one above is
left out, since its witnesses take longer to find. -/
def provesPrime : (depth rank n : Nat) → Bool
  | 0, _, _ => false
  | depth + 1, rank, n =>
    certifies n (PartialFactors.ofTrials (n - 1)).primes [] ||
      climb (provesPrime depth) n 0 (efforts.take rank) (.ofTrials (n - 1)) (.ofTrials (n + 1))

/-- Whether a number is proved to be a prime. -/
def isProvedPrime (n : Nat) : Bool :=
  isProbablePrime n && provesPrime (n.log2 + 1) efforts.length n

/-- A proper divisor, if one is found by any means. -/
def anyDivisor? (n : Nat) : Option Nat :=
  match (closeFactor? n).filter (isProperDivisor n) with
  | some d => some d
  | none => efforts.findSome? (·.properDivisor? n)

/-- The prime factors of a number that has no factors below `least`, each as often as it divides, in
some order. -/
def largeFactors (least : Nat) : (depth n : Nat) → List Nat
  | 0, n => fullDivision least n
  | depth + 1, n =>
    if n = 1 then []
    else if n < least * least then [n]
    else if isProvedPrime n then [n]
    else
      match perfectPower? n with
      | some (base, exponent) =>
        (largeFactors least depth base).flatMap (List.replicate exponent)
      | none =>
        match anyDivisor? n with
        | some d => largeFactors least depth d ++ largeFactors least depth (n / d)
        | none => fullDivision least n

/-- Put a number into its place among numbers in ascending order. -/
def insertAscending (p : Nat) : List Nat → List Nat
  | [] => [p]
  | q :: qs => if p ≤ q then p :: q :: qs else q :: insertAscending p qs

/-- The prime factors of a positive number in ascending order, each as often as it divides. Small
factors are found by trial division. What is left is proved to be a prime or split by one of the
searches for divisors, and a number that resists both is divided by every candidate in turn. -/
def primeFactors (n : Nat) : List Nat :=
  let (divisors, cofactor, next) := trialDivision smallTrials 2 n
  (divisors ++ largeFactors next (cofactor.log2 + 1) cofactor).foldr insertAscending []

end Dataflow.Arithmetic
