import Dataflow.Factors
import Dataflow.Text.Blank
import Dataflow.Text.Identifier

namespace Dataflow

open Text

/-- A term made of prime factors and parameters. -/
structure Monomial where
  factors : Factors

namespace Monomial

/-- The empty product. -/
def one : Monomial :=
  ⟨.empty⟩

/-- How often a divisor occurs. -/
def power (m : Monomial) (key : String) : Nat :=
  m.factors.power key

/-- Monomials are equal when all powers agree. -/
instance : BEq Monomial where
  beq a b := a.factors == b.factors

/-- Equality of monomials is agreement of all powers. -/
theorem beq_iff {a b : Monomial} : (a == b) = true ↔ ∀ key, a.power key = b.power key :=
  Factors.beq_iff

/-- The constant monomial of a positive number. -/
def ofNumber (n : Int) : Except Failure Monomial :=
  Monomial.mk <$> Factors.ofNumber n

/-- The parameters that occur, in ascending order. -/
def parameters (m : Monomial) : List String :=
  sortTexts (m.factors.keys.filter fun key => !isNumeral key)

/-- Whether a monomial has no parameters. -/
def isConstant (m : Monomial) : Bool :=
  m.factors.keys.all isNumeral

/-- Whether a monomial is the empty product. -/
def isOne (m : Monomial) : Bool :=
  m.factors.entries.isEmpty

/-- A power of a number. For a base up to one, a positive power is the base itself, however large
the exponent. -/
def numericPower (base exponent : Nat) : Nat :=
  if base ≤ 1 then base else base.pow exponent

/-- The product of the numeric divisors. -/
def coefficient (m : Monomial) : Except Failure Nat :=
  m.factors.entries.foldlM (fun product entry =>
    if isNumeral entry.1 then do
      let value ← Numeral.read entry.1
      return product * numericPower value entry.2
    else return product) 1

section Text

/-- The number of items that a list stays below. -/
def repetitionLimit : Nat := Nat.pow 2 63

/-- A list of a text, so many times. -/
def repeated (count : Nat) (text : String) : Except Failure (List String) :=
  if count < repetitionLimit then return List.replicate count text else throw .repetitionTooLong

/-- The parameters in ascending order, each as often as it occurs. -/
def symbols (m : Monomial) : Except Failure (List String) := do
  let groups ← m.parameters.mapM fun key => repeated (m.power key) key
  return groups.flatten

/-- The text of a monomial: the coefficient unless it is one and parameters follow, then the
parameters, with stars between. -/
def render (m : Monomial) : Except Failure String := do
  let symbols ← m.symbols
  let coefficient ← m.coefficient
  match symbols with
  | [] => Numeral.write coefficient
  | symbols =>
    let symbolic := "*".intercalate symbols
    if coefficient = 1 then return symbolic
    else return (← Numeral.write coefficient) ++ "*" ++ symbolic

/-- How a monomial is shown among other values. -/
def inspect (m : Monomial) : Except Failure String := do
  return "Expression('" ++ (← m.render) ++ "')"

/-- Cut a text at every star. -/
def splitAtStars : List Char → List (List Char)
  | [] => [[]]
  | c :: cs =>
    if c = '*' then [] :: splitAtStars cs
    else
      match splitAtStars cs with
      | [] => [[c]]
      | piece :: pieces => (c :: piece) :: pieces

/-- The factors of a text, without the blanks around them; empty ones do not count. -/
def tokens (text : String) : List String :=
  ((splitAtStars text.toList).map trim |>.filter fun cs => !cs.isEmpty).map String.ofList

/-- The divisors of one factor of the text `text`. -/
def readToken (text token : String) : Except Failure Factors :=
  if isNumeral token then do
    let value ← Numeral.read token
    if value = 0 then throw (.zeroRate text token)
    Factors.ofNumber value
  else if isIdentifier token.toList then return Factors.empty.set token 1
  else throw (.malformedRate text token)

/-- Read a monomial. -/
def parse (text : String) : Except Failure Monomial :=
  Monomial.mk <$> (tokens text).foldlM (fun factors token =>
    factors.union <$> readToken text token) Factors.empty

end Text

section Arithmetic

/-- The product. -/
def mul (a b : Monomial) : Monomial :=
  ⟨a.factors.union b.factors⟩

instance : Mul Monomial where
  mul := mul

/-- The greatest common divisor. -/
def gcd (a b : Monomial) : Monomial :=
  ⟨a.factors.inter b.factors⟩

/-- What is left of `a` when the divisors of `b` are struck out. -/
def strike (a b : Monomial) : Monomial :=
  ⟨a.factors.diff b.factors⟩

/-- The least common multiple. -/
def lcm (a b : Monomial) : Monomial :=
  a.strike (a.gcd b) * b

/-- The exact quotient. -/
def div (a b : Monomial) : Except Failure Monomial :=
  match a.factors.lacking? b.factors with
  | some (key, wanted) =>
    if Numeral.isWritable wanted then do
      throw (.indivisible (← a.render) (← b.render) key (a.power key) wanted)
    else throw .numberTooLarge
  | none => return a.strike b

/-- Whether `a` divides `b`. -/
def divides (a b : Monomial) : Bool :=
  a.gcd b == a

/-- The number that a constant monomial is. -/
def toNumber (m : Monomial) : Except Failure Nat :=
  if m.isConstant then m.coefficient
  else do throw (.parametric (← m.render) m.parameters)

/-- The sum of two constant monomials. -/
def add (a b : Monomial) : Except Failure Monomial :=
  if a.isConstant && b.isConstant then do
    let left ← a.toNumber
    let right ← b.toNumber
    ofNumber (left + right : Nat)
  else do throw (.unsummable (← a.render) (← b.render))

@[simp]
theorem power_one (key : String) : one.power key = 0 := rfl

@[simp]
theorem power_mul (a b : Monomial) (key : String) :
    (a * b).power key = a.power key + b.power key :=
  Factors.power_union a.factors b.factors key

@[simp]
theorem power_gcd (a b : Monomial) (key : String) :
    (a.gcd b).power key = min (a.power key) (b.power key) :=
  Factors.power_inter a.factors b.factors key

@[simp]
theorem power_strike (a b : Monomial) (key : String) :
    (a.strike b).power key = a.power key - b.power key :=
  Factors.power_diff a.factors b.factors key

/-- The least common multiple has the larger of the two powers. -/
@[simp]
theorem power_lcm (a b : Monomial) (key : String) :
    (a.lcm b).power key = max (a.power key) (b.power key) := by
  rw [lcm, power_mul, power_strike, power_gcd]
  omega

/-- Divisibility is comparison of powers. -/
theorem divides_iff {a b : Monomial} :
    a.divides b = true ↔ ∀ key, a.power key ≤ b.power key := by
  rw [divides, beq_iff]
  exact forall_congr' fun key => by rw [power_gcd]; omega

end Arithmetic

end Monomial

end Dataflow
