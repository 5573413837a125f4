import Dataflow.Proofs.Monomial.Positive
import Mathlib.Algebra.BigOperators.Group.Finset.Basic
import Mathlib.Algebra.Order.BigOperators.GroupWithZero.List
import Mathlib.Algebra.Order.Ring.Nat

namespace Dataflow.Monomial

open Text

/-- The value of a divisor. -/
def divisorValue (v : String → Nat) (key : String) : Nat :=
  if isNumeral key then Numeral.value key else v key

/-- The value of a monomial when the parameters have the values `v`. -/
def value (v : String → Nat) (m : Monomial) : Nat :=
  (m.factors.entries.map fun entry => divisorValue v entry.1 ^ entry.2).prod

variable {v : String → Nat} {a b m : Monomial}

private theorem power_pos_iff {key : String} : 0 < m.power key ↔ key ∈ m.factors.keys :=
  Factors.power_pos_iff

/-- Any set of divisors that leaves none out may be multiplied over. -/
theorem value_eq_prod {s : Finset String} (hs : ∀ key, 0 < m.power key → key ∈ s) :
    m.value v = ∏ key ∈ s, divisorValue v key ^ m.power key := by
  have hentries : m.value v =
      (m.factors.keys.map fun key => divisorValue v key ^ m.power key).prod := by
    rw [value, Factors.keys, List.map_map]
    congr 1
    apply List.map_congr_left
    intro entry hentry
    exact congrArg _ (Factors.power_of_mem hentry).symm
  have hnodup : m.factors.keys.Nodup := m.factors.nodup_keys
  rw [hentries, ← List.prod_toFinset _ hnodup]
  apply Finset.prod_subset
  · intro key hkey
    exact hs key (power_pos_iff.mpr (List.mem_toFinset.mp hkey))
  · intro key _ hkey
    have hzero : m.power key = 0 := by
      by_contra hne
      exact hkey (List.mem_toFinset.mpr (power_pos_iff.mp (Nat.pos_of_ne_zero hne)))
    rw [hzero, pow_zero]

theorem value_mul : (a * b).value v = a.value v * b.value v := by
  let s := a.factors.keys.toFinset ∪ b.factors.keys.toFinset
  have hmem {key : String} : key ∈ s ↔ 0 < a.power key ∨ 0 < b.power key := by
    simp [s, power_pos_iff]
  have hprod : ∀ key, 0 < (a * b).power key → key ∈ s := by
    intro key hkey
    rw [power_mul] at hkey
    exact hmem.mpr (by omega)
  rw [value_eq_prod hprod, value_eq_prod fun _ h => hmem.mpr (.inl h),
    value_eq_prod fun _ h => hmem.mpr (.inr h), ← Finset.prod_mul_distrib]
  apply Finset.prod_congr rfl
  intro key _
  rw [power_mul, pow_add]

theorem value_congr (h : (a == b) = true) : a.value v = b.value v := by
  have hpower := beq_iff.mp h
  have hmem (m : Monomial) : ∀ key, 0 < m.power key → key ∈ m.factors.keys.toFinset :=
    fun key hkey => List.mem_toFinset.mpr (power_pos_iff.mp hkey)
  rw [value_eq_prod (hmem b), value_eq_prod fun key hkey => hmem b key (hpower key ▸ hkey)]
  apply Finset.prod_congr rfl
  intro key _
  rw [hpower key]

theorem value_pos (hm : m.Positive) (hv : ∀ key, 0 < v key) : 0 < m.value v := by
  unfold value
  apply List.prod_pos
  intro n hn
  obtain ⟨entry, hentry, rfl⟩ := List.mem_map.mp hn
  apply Nat.pow_pos
  have hpower : 0 < m.power entry.1 := power_pos_iff.mpr (List.mem_map_of_mem hentry)
  rw [divisorValue]
  split
  · rename_i hnumeral
    exact hm entry.1 hpower hnumeral
  · exact hv entry.1

end Dataflow.Monomial
