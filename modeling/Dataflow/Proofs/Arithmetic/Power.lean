import Dataflow.Arithmetic.Power
import Mathlib.Algebra.CharP.Basic
import Mathlib.Tactic.LinearCombination
import Mathlib.Tactic.Ring

namespace Dataflow.Arithmetic

section Monoid

variable {α M : Type} [CommMonoid M] {mul : α → α → α} {one : α} {f : α → M}

private theorem map_foldl_binaryDigits (hmul : ∀ a b, f (mul a b) = f a * f b) (base start : α)
    (count n : Nat) :
    f ((binaryDigits count n).foldl
      (fun power bit =>
        let square := mul power power
        if bit then mul square base else square) start) =
      f start ^ 2 ^ count * f base ^ (n % 2 ^ count) := by
  induction count generalizing start with
  | zero => simp [binaryDigits, Nat.mod_one]
  | succ count ih =>
    have hdigit : n / 2 ^ count % 2 = (n.testBit count).toNat := (Nat.toNat_testBit n count).symm
    rw [binaryDigits, List.foldl_cons, ih, Nat.mod_pow_succ, hdigit, Nat.pow_succ', pow_add,
      pow_mul]
    cases n.testBit count
    · simp [hmul, pow_two]
    · simp [hmul, pow_two, mul_pow, mul_assoc, mul_comm, mul_left_comm]

private theorem map_powBy (hone : f one = 1) (hmul : ∀ a b, f (mul a b) = f a * f b) (base : α)
    (exponent : Nat) : f (powBy mul one base exponent) = f base ^ exponent := by
  rw [powBy, map_foldl_binaryDigits hmul, hone, one_pow, one_mul,
    Nat.mod_eq_of_lt Nat.lt_log2_self]

end Monoid

section Ring

variable {R : Type} [CommRing R] {q n : Nat} [CharP R q]

private theorem cast_mod_of_dvd (h : q ∣ n) (k : Nat) : ((k % n : Nat) : R) = k :=
  CharP.natCast_eq_natCast' R q ((Nat.mod_modEq k n).of_dvd h)

theorem cast_powMod (h : q ∣ n) (base exponent : Nat) :
    (powMod base exponent n : R) = (base : R) ^ exponent := by
  apply map_powBy (f := (Nat.cast : Nat → R))
  · rw [cast_mod_of_dvd h, Nat.cast_one]
  · intro a b
    rw [cast_mod_of_dvd h, Nat.cast_mul]

namespace Surd

/-- The value of a sum where `root` is the square root. -/
def value (root : R) (a : Surd) : R :=
  a.rational + a.irrational * root

theorem value_powMod (h : q ∣ n) {d : Nat} {root : R} (hroot : root * root = d) (base : Surd)
    (exponent : Nat) : (powMod d n base exponent).value root = base.value root ^ exponent := by
  apply map_powBy (f := value root)
  · simp [value, cast_mod_of_dvd h]
  · intro a b
    simp only [value, mulMod, cast_mod_of_dvd h, Nat.cast_add, Nat.cast_mul]
    linear_combination -(a.irrational * b.irrational : R) * hroot

end Surd

end Ring

end Dataflow.Arithmetic
