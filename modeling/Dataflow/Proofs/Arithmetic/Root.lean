import Dataflow.Arithmetic.Root
import Mathlib.Algebra.Group.Nat.Defs
import Mathlib.Data.Nat.Log

namespace Dataflow.Arithmetic

private theorem rootDigits_spec {k n bits root : Nat} (hle : root ^ k ≤ n)
    (hlt : n < (root + 2 ^ bits) ^ k) :
    rootDigits k n bits root ^ k ≤ n ∧ n < (rootDigits k n bits root + 1) ^ k := by
  induction bits generalizing root with
  | zero =>
    rw [rootDigits]
    exact ⟨hle, hlt⟩
  | succ bits ih =>
    have hsum : root + 2 ^ (bits + 1) = root + 2 ^ bits + 2 ^ bits := by rw [Nat.pow_succ]; omega
    rw [rootDigits]
    split
    · rename_i hnext
      exact ih hnext (hsum ▸ hlt)
    · rename_i hnext
      exact ih hle (Nat.lt_of_not_le hnext)

private theorem root_spec {k n : Nat} (hk : 0 < k) : root k n ^ k ≤ n ∧ n < (root k n + 1) ^ k := by
  apply rootDigits_spec
  · rw [Nat.zero_pow hk]
    exact Nat.zero_le n
  · have hlog : n.log2 < (n.log2 / k + 1) * k := by
      rw [Nat.mul_comm]
      exact Nat.lt_mul_div_succ n.log2 hk
    calc n < 2 ^ (n.log2 + 1) := Nat.lt_log2_self
      _ ≤ 2 ^ ((n.log2 / k + 1) * k) := Nat.pow_le_pow_right Nat.zero_lt_two hlog
      _ = (0 + 2 ^ (n.log2 / k + 1)) ^ k := by rw [Nat.zero_add, Nat.pow_mul]

theorem root_mul_self (m : Nat) : root 2 (m * m) = m := by
  obtain ⟨hle, hlt⟩ := root_spec (k := 2) (n := m * m) Nat.zero_lt_two
  rw [Nat.pow_two] at hle hlt
  have h := Nat.mul_self_le_mul_self_iff.mp hle
  have h' := Nat.mul_self_lt_mul_self_iff.mp hlt
  omega

end Dataflow.Arithmetic
