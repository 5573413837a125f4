import Dataflow.Arithmetic.ResidueClass
import Dataflow.Arithmetic.UnsignedGroup

namespace Dataflow.Arithmetic

section Cycle

/-- Go `steps` steps `x ↦ x² + 1` modulo `n`, collecting the product of the distances from an
anchor. -/
def walk (n anchor : Nat) : (steps place product : Nat) → Nat × Nat
  | 0, place, product => (place, product)
  | steps + 1, place, product =>
    let place := (place * place + 1) % n
    walk n anchor steps place (product * distance anchor place % n)

/-- Go the same way step by step, up to a distance that shares a divisor with `n`. -/
def retrace (n anchor : Nat) : (steps place : Nat) → Option Nat
  | 0, _ => none
  | steps + 1, place =>
    let place := (place * place + 1) % n
    let shared := Nat.gcd (distance anchor place) n
    if shared = 1 then retrace n anchor steps place else some shared

/-- The steps that are taken before a divisor is looked for. -/
def stride : Nat := 64

/-- Follow the squares for some strides. The anchor is moved up after `left` strides, and then stays
for twice as long as before. -/
def squareCycle (n : Nat) : (strides span left anchor place : Nat) → Option Nat
  | 0, _, _, _, _ => none
  | strides + 1, span, left, anchor, place =>
    let (next, product) := walk n anchor stride place 1
    if Nat.gcd product n = 1 then
      match left with
      | 0 => squareCycle n strides (2 * span) (2 * span) next next
      | left + 1 => squareCycle n strides span left anchor next
    else retrace n anchor stride place

end Cycle

section Trace

/-- Sums of a power and its inverse, `x ^ k + 1 / x ^ k`. Modulo a prime, the order of `x` divides the
number before the prime. -/
def traces (n : Nat) : UnsignedGroup Nat where
  double v := (v * v + (n - 2)) % n
  add v w difference := (v * w + (n - difference)) % n
  size v := v + (n - 2)
  coordinates := id

/-- The sum `2 + 1 / 2` modulo an odd number. -/
def firstTrace (n : Nat) : Nat :=
  (n + 5) / 2

end Trace

section Curve

/-- The inverse of a number modulo `n`, by the Euclidean scheme of the two. -/
def inverseFrom (n : Nat) : (fuel remainder inverse next nextInverse : Nat) → Nat
  | 0, _, inverse, _, _ => inverse
  | fuel + 1, remainder, inverse, next, nextInverse =>
    if next = 0 then inverse
    else
      inverseFrom n fuel next nextInverse (remainder % next)
        ((inverse + (n - remainder / next * nextInverse % n)) % n)

/-- The inverse of a number modulo `n`, if it has one. -/
def inverseMod (n k : Nat) : Nat :=
  inverseFrom n (2 * n.log2 + 4) n 0 (k % n) 1

/-- The inverse of a number, and the inverses of some others, by a single inversion: that of the
product of them all. -/
def inverses (n : Nat) : List Nat → (product : Nat) → Nat × List Nat
  | [], product => (inverseMod n product, [])
  | k :: ks, product =>
    let (inverse, rest) := inverses n ks (product * k % n)
    (inverse * k % n, inverse * product % n :: rest)

/-- A point of a cubic curve, by the ratio of two coordinates modulo `n`. -/
structure CurvePoint where
  x : Nat
  z : Nat

/-- The points of the curve with the coefficient `a`. -/
def curve (n a : Nat) : UnsignedGroup CurvePoint where
  double p :=
    let xx := p.x * p.x
    let zz := p.z * p.z
    let xz := p.x * p.z % n
    let difference := distance xx zz
    ⟨difference * difference % n, 4 * xz * ((xx + a * xz + zz) % n) % n⟩
  add p q difference :=
    let u := distance (p.x * q.x) (p.z * q.z)
    let v := distance (p.x * q.z) (p.z * q.x)
    ⟨difference.z * (u * u % n) % n, difference.x * (v * v % n) % n⟩
  size p := p.z
  coordinates points :=
    List.zipWith (fun p inverse => p.x * inverse % n) points
      (inverses n (points.map CurvePoint.z) 1).2

/-- A curve chosen by a seed, with a point on it. Modulo every prime the number of points of the
curve is a multiple of twelve. -/
def seededCurve (n seed : Nat) : UnsignedGroup CurvePoint × CurvePoint :=
  let u := seed * seed - 5
  let v := 4 * seed
  let uCube := u * u % n * u % n
  let vCube := v * v % n * v % n
  let gap := v + (n - u % n)
  let numerator := gap * gap % n * gap % n * (3 * u + v) % n
  let a := numerator * inverseMod n (4 * uCube % n * v % n) + (n - 2)
  (curve n (a % n), ⟨uCube, vCube⟩)

end Curve

/-- What a search may cost. -/
structure Effort where
  /-- How many strides the cycle of squares is followed for. -/
  strides : Nat
  /-- The bound for the primes in the order of a sum of powers; none are tried if it is zero. -/
  traceBound : Nat
  /-- The bound for the primes in the order of a point of a curve. -/
  curveBound : Nat
  /-- How many curves are tried. -/
  curves : Nat

/-- Searches of growing cost. -/
def efforts : List Effort :=
  [ ⟨64, 2000, 0, 0⟩, ⟨0, 20000, 200, 8⟩, ⟨0, 0, 2000, 20⟩, ⟨0, 0, 5000, 20⟩,
    ⟨0, 0, 11000, 40⟩, ⟨0, 0, 20000, 80⟩, ⟨0, 0, 50000, 200⟩ ]

namespace Effort

variable (effort : Effort) (n : Nat)

/-- A proper divisor that sums of a power and its inverse show. -/
def traceDivisor? : Option Nat :=
  if effort.traceBound = 0 then none
  else
    let primes := primesBelow effort.traceBound
    some ((traces n).orderDivisor n effort.traceBound primes (firstTrace n)) |>.filter
      (isProperDivisor n)

/-- A proper divisor that the points of some curves show. -/
def curveDivisor? : Option Nat :=
  let primes := primesBelow effort.curveBound
  (List.range effort.curves).findSome? fun i =>
    let (curve, point) := seededCurve n (effort.curveBound + i)
    some (curve.orderDivisor n effort.curveBound primes point) |>.filter (isProperDivisor n)

/-- A proper divisor, if an effort finds one. -/
def properDivisor? : Option Nat :=
  match (squareCycle n effort.strides 1 1 2 2).filter (isProperDivisor n) with
  | some d => some d
  | none => effort.traceDivisor? n <|> effort.curveDivisor? n

end Effort

end Dataflow.Arithmetic
