import Dataflow.Arithmetic.Power
import Dataflow.Arithmetic.ResidueClass

namespace Dataflow.Arithmetic

/-- The bases that are tried. There are many, because almost all small numbers are squares modulo
`n` if a neighbour of `n` has many small factors. -/
def trialBases (n : Nat) : List Nat :=
  List.range' 2 100 ++ (n - 1) :: List.range' 102 900

/-- A number that is no square modulo `n`, if `n` is a prime. -/
def nonResidue? (n : Nat) : Option Nat :=
  (trialBases n).find? fun d => powMod d ((n - 1) / 2) n == n - 1

/-- Whether a number behaves like a prime. All odd primes do, but for some that are smaller than
the trials or have only large non-residues; hardly any other number does. -/
def isProbablePrime (n : Nat) : Bool :=
  powMod 2 (n - 1) n == 1 &&
    match nonResidue? n with
    | some d => (Surd.powMod d n ⟨2, 1⟩ (n + 1)).irrational == 0
    | none => false

/-- Strike a divisor out of a number. -/
def strikeOut (p : Nat) : (fuel n : Nat) → Nat
  | 0, n => n
  | fuel + 1, n => if n % p = 0 then strikeOut p fuel (n / p) else n

/-- The part of a number that is made of the given primes. -/
def partOf (primes : List Nat) (n : Nat) : Nat :=
  n / primes.foldl (fun rest p => strikeOut p (rest.log2 + 1) rest) n

/-- Whether the powers of a base witness the prime factor `r` of `n - 1`. -/
def isLowerWitness (n r base : Nat) : Bool :=
  powMod base (n - 1) n == 1 && Nat.gcd (powMod base ((n - 1) / r) n - 1) n == 1

/-- Whether the powers of `t + √d` witness the prime factor `r` of `n + 1`. -/
def isUpperWitness (n d r t : Nat) : Bool :=
  Nat.gcd (t * t + (n - d)) n == 1 && (Surd.powMod d n ⟨t, 1⟩ (n + 1)).irrational == 0 &&
    Nat.gcd (Surd.powMod d n ⟨t, 1⟩ ((n + 1) / r)).irrational n == 1

/-- Whether there is a witness for each of the prime factors of `n - 1`. -/
def hasLowerWitnesses (n : Nat) (primes : List Nat) : Bool :=
  primes.all fun r => (trialBases n).any (isLowerWitness n r)

/-- Whether there is a witness for each of the prime factors of `n + 1`. -/
def hasUpperWitnesses (n : Nat) (primes : List Nat) : Bool :=
  match nonResidue? n with
  | none => primes.isEmpty
  | some d =>
    d < n && Nat.gcd d n == 1 &&
      primes.all fun r => (List.range' 1 100).any (isUpperWitness n d r)

/-- Whether some prime factors of `n - 1` and some of `n + 1` prove that `n` is a prime. The
witnesses show that every prime factor of `n` is one modulo the part of `n - 1` that is made of the
former, and one or minus one modulo the part of `n + 1` that is made of the latter. Both parts
together leave a single residue class besides that of one, through which `mayFactorWithUnit`
searches. -/
def certifies (n : Nat) (lower upper : List Nat) : Bool :=
  let modulus := Nat.lcm (partOf lower (n - 1)) (partOf upper (n + 1))
  n % 2 == 1 && 1 < n && n < modulus * modulus * modulus &&
    hasLowerWitnesses n lower && hasUpperWitnesses n upper && !mayFactorWithUnit n modulus

end Dataflow.Arithmetic
