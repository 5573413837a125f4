import Dataflow.Arithmetic.ResidueClass
import Dataflow.Proofs.Arithmetic.Root
import Mathlib.Algebra.Order.Ring.Abs
import Mathlib.Data.Int.ModEq
import Mathlib.Tactic.Linarith
import Mathlib.Tactic.Ring

namespace Dataflow.Arithmetic

/-- A factorization into `x * s + 1` and `y * s + t`, where `s` exceeds the cube root. -/
structure UnitSplit (n s t x y : Nat) : Prop where
  eq : n = (x * s + 1) * (y * s + t)
  x_pos : 0 < x
  one_lt : 1 < y * s + t
  t_pos : 0 < t
  t_lt : t < s
  lt_cube : n < s * s * s

namespace UnitSplit

variable {n s t x y : Nat} (h : UnitSplit n s t x y)
include h

private theorem s_pos : 0 < s :=
  Nat.lt_of_le_of_lt (Nat.zero_le t) h.t_lt

private theorem isProperDivisor_left : isProperDivisor n (x * s + 1) = true := by
  have hpos := Nat.mul_pos h.x_pos h.s_pos
  have hlt : (x * s + 1) * 1 < (x * s + 1) * (y * s + t) :=
    Nat.mul_lt_mul_of_pos_left h.one_lt (Nat.succ_pos _)
  have hmod : n % (x * s + 1) = 0 := by rw [h.eq, Nat.mul_mod_right]
  simp only [isProperDivisor, Bool.and_eq_true, decide_eq_true_eq, beq_iff_eq]
  rw [← h.eq] at hlt
  omega

private theorem isProperDivisor_right : isProperDivisor n (y * s + t) = true := by
  have hpos := Nat.mul_pos h.x_pos h.s_pos
  have hlt : 1 * (y * s + t) < (x * s + 1) * (y * s + t) :=
    Nat.mul_lt_mul_of_pos_right (by omega) (Nat.lt_trans Nat.zero_lt_one h.one_lt)
  have hmod : n % (y * s + t) = 0 := by rw [h.eq, Nat.mul_mod_left]
  have hone := h.one_lt
  simp only [isProperDivisor, Bool.and_eq_true, decide_eq_true_eq, beq_iff_eq]
  rw [← h.eq] at hlt
  omega

/-- The combination that belongs to the factorization finds it. -/
theorem splitsByDifference_eq {row : SchemeRow} (hrow : 0 < row.a ∨ 0 < row.b) {v : Int}
    (hv : v = x * row.a - y * row.b) : splitsByDifference n s t row v = true := by
  obtain ⟨a, b, c⟩ := row
  have hdifference : v * s + a - b * t =
      ((a * (x * s + 1) : Nat) : Int) - (b * (y * s + t) : Nat) := by
    rw [hv]
    push_cast
    ring
  have hsquare : (v * s + a - b * t).natAbs * (v * s + a - b * t).natAbs + 4 * a * b * n =
      (a * (x * s + 1) + b * (y * s + t)) * (a * (x * s + 1) + b * (y * s + t)) := by
    zify
    rw [abs_mul_abs_self, hdifference, h.eq]
    push_cast
    ring
  unfold splitsByDifference
  dsimp only
  rw [hsquare, root_mul_self, hdifference, Bool.or_eq_true]
  obtain ha | hb := hrow
  · left
    have hhalf : (((a * (x * s + 1) + b * (y * s + t) : Nat) : Int) +
        (((a * (x * s + 1) : Nat) : Int) - (b * (y * s + t) : Nat))) / 2 =
          ((a * (x * s + 1) : Nat) : Int) := by
      omega
    rw [hhalf, Int.toNat_natCast, Nat.mul_div_cancel_left _ ha]
    exact h.isProperDivisor_left
  · right
    have hhalf : (((a * (x * s + 1) + b * (y * s + t) : Nat) : Int) -
        (((a * (x * s + 1) : Nat) : Int) - (b * (y * s + t) : Nat))) / 2 =
          ((b * (y * s + t) : Nat) : Int) := by
      omega
    rw [hhalf, Int.toNat_natCast, Nat.mul_div_cancel_left _ hb]
    exact h.isProperDivisor_right

/-- The combination that belongs to the factorization finds it. -/
theorem splitsBySum_eq {row : SchemeRow} (hrow : 0 < row.a) {v : Nat}
    (hv : v = x * row.a + y * row.b) : splitsBySum n s t row v = true := by
  obtain ⟨a, b, c⟩ := row
  have hsum : v * s + a + b * t = a * (x * s + 1) + b * (y * s + t) := by
    rw [hv]
    ring
  have hproduct : 4 * a * b * n = 4 * (a * (x * s + 1)) * (b * (y * s + t)) := by
    rw [h.eq]
    ring
  unfold splitsBySum
  dsimp only
  rw [hsum, hproduct]
  have hleft : isProperDivisor n (a * (x * s + 1) / a) = true := by
    rw [Nat.mul_div_cancel_left _ hrow]
    exact h.isProperDivisor_left
  generalize a * (x * s + 1) = p at hleft ⊢
  generalize b * (y * s + t) = q
  rcases Nat.le_total p q with hle | hle
  · obtain ⟨d, rfl⟩ := Nat.exists_eq_add_of_le hle
    have hsquare : (p + (p + d)) * (p + (p + d)) = 4 * p * (p + d) + d * d := by ring
    have hroot : (p + (p + d)) * (p + (p + d)) - 4 * p * (p + d) = d * d := by omega
    have hhalf : (p + (p + d) - d) / 2 = p := by omega
    rw [if_neg (by omega), hroot, root_mul_self, hhalf, hleft, Bool.or_true]
  · obtain ⟨d, rfl⟩ := Nat.exists_eq_add_of_le hle
    have hsquare : (q + d + q) * (q + d + q) = 4 * (q + d) * q + d * d := by ring
    have hroot : (q + d + q) * (q + d + q) - 4 * (q + d) * q = d * d := by omega
    have hhalf : (q + d + q + d) / 2 = q + d := by omega
    rw [if_neg (by omega), hroot, root_mul_self, hhalf, hleft, Bool.true_or]

end UnitSplit

/-- Two neighbouring rows of the scheme: the determinant is `s`, and the combinations leave the
remainders that are noted. -/
structure Scheme (s x y : Nat) (even odd : SchemeRow) : Prop where
  det : even.a * odd.b + odd.a * even.b = s
  odd_pos : 0 < odd.a
  even_lt : even.c < s
  odd_lt : odd.c < s
  even_modEq : (x * even.a - y * even.b : Int) ≡ even.c [ZMOD s]
  odd_modEq : (x * odd.a + y * odd.b : Int) ≡ odd.c [ZMOD s]

private theorem sub_modEq {s : Nat} (hs : 0 < s) (c m : Nat) :
    (((c + (s - m % s)) % s : Nat) : Int) ≡ c - m [ZMOD s] := by
  have hlt := Nat.mod_lt m hs
  rw [Int.natCast_mod, Nat.cast_add, Nat.cast_sub hlt.le, Int.natCast_mod]
  refine (Int.mod_modEq _ _).trans ?_
  have hm : (s : Int) - (m : Int) % s ≡ 0 - m [ZMOD s] :=
    Int.ModEq.sub (Int.modEq_zero_iff_dvd.mpr dvd_rfl) (Int.mod_modEq _ _)
  simpa [sub_eq_add_neg] using hm.add_left (c : Int)

namespace Scheme

variable {n s t x y : Nat} {even odd : SchemeRow}

/-- An even row whose combination is small finds the factorization. -/
theorem splitsAtEven_eq (hsplit : UnitSplit n s t x y) (h : Scheme s x y even odd)
    (hrow : 0 < even.a ∨ 0 < even.b) (hlow : -(s : Int) < x * even.a - y * even.b)
    (hhigh : (x * even.a - y * even.b : Int) < s) : splitsAtEven n s t even = true := by
  have hc : (even.c : Int) % s = even.c :=
    Int.emod_eq_of_lt (Int.natCast_nonneg _) (Int.ofNat_lt.mpr h.even_lt)
  have hmod : (x * even.a - y * even.b : Int) % s = even.c := by
    rw [← hc]
    exact h.even_modEq
  unfold splitsAtEven
  rw [Bool.or_eq_true]
  rcases lt_or_ge (x * even.a - y * even.b : Int) 0 with hneg | hpos
  · right
    apply hsplit.splitsByDifference_eq hrow
    rw [← Int.add_emod_right, Int.emod_eq_of_lt (by omega) (by omega)] at hmod
    omega
  · left
    apply hsplit.splitsByDifference_eq hrow
    rw [Int.emod_eq_of_lt hpos hhigh] at hmod
    exact hmod.symm

/-- An odd row whose combination is small finds the factorization. -/
theorem splitsAtOdd_eq (hsplit : UnitSplit n s t x y) (h : Scheme s x y even odd)
    (hx : odd.b ≤ x) (hy : odd.a ≤ y) : splitsAtOdd n s t odd = true := by
  have hs := hsplit.s_pos
  obtain ⟨i, rfl⟩ := Nat.exists_eq_add_of_le hx
  obtain ⟨j, rfl⟩ := Nat.exists_eq_add_of_le hy
  have hsum : (odd.b + i) * odd.a + (odd.a + j) * odd.b =
      2 * odd.a * odd.b + (i * odd.a + j * odd.b) := by ring
  -- The product of the two quotients is at most `n / s²`, which is less than `s`.
  have hproduct : (odd.b + i) * (odd.a + j) ≤ n / (s * s) := by
    rw [Nat.le_div_iff_mul_le (Nat.mul_pos hs hs), hsplit.eq]
    calc (odd.b + i) * (odd.a + j) * (s * s) = ((odd.b + i) * s) * ((odd.a + j) * s) := by ring
      _ ≤ ((odd.b + i) * s + 1) * ((odd.a + j) * s + t) :=
        Nat.mul_le_mul (Nat.le_succ _) (Nat.le_add_right _ _)
  have hbound : n / (s * s) < s :=
    (Nat.div_lt_iff_lt_mul (Nat.mul_pos hs hs)).mpr (by rw [← Nat.mul_assoc]; exact hsplit.lt_cube)
  have hexpand : (odd.b + i) * (odd.a + j) =
      odd.a * odd.b + (i * odd.a + j * odd.b) + i * j := by ring
  have hextra : i * odd.a + j * odd.b < s := by omega
  have hremainder : (odd.c + (s - 2 * odd.a * odd.b % s)) % s = i * odd.a + j * odd.b := by
    have hmod := (sub_modEq hs odd.c (2 * odd.a * odd.b)).trans
      (h.odd_modEq.symm.sub_right ((2 * odd.a * odd.b : Nat) : Int))
    rw [show (((odd.b + i : Nat) : Int) * odd.a + ((odd.a + j : Nat) : Int) * odd.b -
      ((2 * odd.a * odd.b : Nat) : Int)) = ((i * odd.a + j * odd.b : Nat) : Int) by
        push_cast
        ring] at hmod
    exact (Int.natCast_modEq_iff.mp hmod).eq_of_lt_of_lt (Nat.mod_lt _ hs) hextra
  unfold splitsAtOdd
  dsimp only
  rw [hremainder, Bool.and_eq_true, decide_eq_true_eq]
  have hdouble : 2 * odd.a * odd.b = odd.a * odd.b + odd.a * odd.b := by ring
  exact ⟨by omega, hsplit.splitsBySum_eq h.odd_pos hsum.symm⟩

/-- The scheme one even row further on. -/
theorem nextEven (hs : 0 < s) (h : Scheme s x y even odd) :
    Scheme s x y
      ⟨even.a - even.a / odd.a * odd.a, even.b + even.a / odd.a * odd.b,
        (even.c + (s - even.a / odd.a * odd.c % s)) % s⟩ odd := by
  have hle : even.a / odd.a * odd.a ≤ even.a := Nat.div_mul_le_self _ _
  generalize even.a / odd.a = q at hle ⊢
  refine ⟨?_, h.odd_pos, Nat.mod_lt _ hs, h.odd_lt, ?_, h.odd_modEq⟩
  · obtain ⟨r, hr⟩ := Nat.exists_eq_add_of_le hle
    have hdet := h.det
    rw [hr, Nat.add_sub_cancel_left]
    rw [hr] at hdet
    rw [← hdet]
    ring
  · refine Int.ModEq.trans ?_ (sub_modEq hs even.c (q * odd.c)).symm
    have hmod := h.even_modEq.sub (h.odd_modEq.mul_left (q : Int))
    push_cast [Nat.cast_sub hle] at hmod ⊢
    convert hmod using 1
    ring

/-- The scheme one odd row further on. -/
theorem nextOdd (hs : 0 < s) (h : Scheme s x y even odd) :
    Scheme s x y even
      ⟨odd.a - (odd.a - 1) / even.a * even.a, odd.b + (odd.a - 1) / even.a * even.b,
        (odd.c + (s - (odd.a - 1) / even.a * even.c % s)) % s⟩ := by
  have hle : (odd.a - 1) / even.a * even.a ≤ odd.a - 1 := Nat.div_mul_le_self _ _
  have hpos := h.odd_pos
  generalize (odd.a - 1) / even.a = q at hle ⊢
  have hle' : q * even.a ≤ odd.a := by omega
  refine ⟨?_, by dsimp only; omega, h.even_lt, Nat.mod_lt _ hs, h.even_modEq, ?_⟩
  · obtain ⟨r, hr⟩ := Nat.exists_eq_add_of_le hle'
    have hdet := h.det
    rw [hr, Nat.add_sub_cancel_left]
    rw [hr] at hdet
    rw [← hdet]
    ring
  · refine Int.ModEq.trans ?_ (sub_modEq hs odd.c (q * even.c)).symm
    have hmod := h.odd_modEq.sub (h.even_modEq.mul_left (q : Int))
    push_cast [Nat.cast_sub hle'] at hmod ⊢
    convert hmod using 1
    ring

/-- Where the combinations of two even rows fall from `s` or more to `-s` or less, the odd row
between them finds the factorization. -/
theorem splitsAtOdd_of_crossing (hsplit : UnitSplit n s t x y) (h : Scheme s x y even odd)
    {next : SchemeRow} (hnext : Scheme s x y next odd)
    (hhigh : (s : Int) ≤ x * even.a - y * even.b)
    (hlow : (x * next.a - y * next.b : Int) ≤ -s) : splitsAtOdd n s t odd = true := by
  have hs := hsplit.s_pos
  have hdet := h.det
  have hdet' := hnext.det
  have hhigh : s + y * even.b ≤ x * even.a := by zify; omega
  have hlow : s + x * next.a ≤ y * next.b := by zify; omega
  apply h.splitsAtOdd_eq hsplit
  · by_contra hlt
    have hstep : (x + 1) * even.a ≤ odd.b * even.a := Nat.mul_le_mul_right _ (by omega)
    rw [Nat.mul_comm odd.b, Nat.add_mul] at hstep
    have hpos : 0 < even.a := by
      by_contra hzero
      obtain hzero : even.a = 0 := by omega
      rw [hzero, Nat.mul_zero] at hhigh
      omega
    omega
  · by_contra hlt
    have hstep : (y + 1) * next.b ≤ odd.a * next.b := Nat.mul_le_mul_right _ (by omega)
    rw [Nat.add_mul] at hstep
    have hpos : 0 < next.b := by
      by_contra hzero
      obtain hzero : next.b = 0 := by omega
      rw [hzero, Nat.mul_zero] at hlow
      omega
    omega

private theorem splitsFrom_eq (hsplit : UnitSplit n s t x y) {fuel : Nat}
    (h : Scheme s x y even odd)
    (hlow : -(s : Int) < x * even.a - y * even.b) : splitsFrom n s t fuel even odd = true := by
  have hs := hsplit.s_pos
  induction fuel generalizing even odd with
  | zero => rfl
  | succ fuel ih =>
    have hnext := h.nextEven hs
    rw [splitsFrom]
    by_cases hevenHit : splitsAtEven n s t even = true
    · rw [if_pos hevenHit]
    rw [if_neg hevenHit]
    -- The row was not hit, so its combination is still `s` or more, and the row is not the last.
    have hhigh : (s : Int) ≤ x * even.a - y * even.b := by
      by_contra hlt
      refine hevenHit (h.splitsAtEven_eq hsplit ?_ hlow (by omega))
      by_contra hzero
      have hdet := h.det
      rw [show even.a = 0 by omega, show even.b = 0 by omega] at hdet
      omega
    have hne : even.a ≠ 0 := by
      intro hzero
      rw [hzero, Nat.cast_zero, Int.mul_zero] at hhigh
      have := Int.mul_nonneg (Int.natCast_nonneg y) (Int.natCast_nonneg even.b)
      omega
    rw [if_neg hne]
    by_cases hoddHit : splitsAtOdd n s t odd = true
    · rw [if_pos hoddHit]
    rw [if_neg hoddHit]
    -- Neither was the odd row, so the next combination has not fallen to `-s`.
    have hlow' := Int.not_le.mp fun hle =>
      hoddHit (h.splitsAtOdd_of_crossing hsplit hnext hhigh hle)
    dsimp only
    split
    · rename_i hlast
      apply hnext.splitsAtEven_eq hsplit _ hlow'
      · dsimp only
        rw [hlast, Nat.cast_zero, Int.mul_zero]
        have := Int.mul_nonneg (Int.natCast_nonneg y)
          (Int.natCast_nonneg (even.b + even.a / odd.a * odd.b))
        omega
      · have hdet := hnext.det
        dsimp only at hdet ⊢
        rw [hlast, Nat.zero_mul, Nat.zero_add] at hdet
        right
        exact Nat.pos_of_mul_pos_left (hdet ▸ hs)
    · exact ih (hnext.nextOdd hs) hlow'

end Scheme

/-- No factorization with a factor that leaves the remainder one is missed. -/
theorem mayFactorWithUnit_eq {n s u v : Nat} (hn : n = u * v) (hu : 1 < u) (hv : 1 < v)
    (hunit : u ≡ 1 [MOD s]) (hs : 0 < s) (hcube : n < s * s * s) (hne : n % s ≠ 0) :
    mayFactorWithUnit n s = true := by
  obtain ⟨x, hx⟩ := (Nat.modEq_iff_dvd' hu.le).mp hunit.symm
  have hu' : u = x * s + 1 := by rw [Nat.mul_comm]; omega
  have hv' : v = v / s * s + n % s := by
    have hmod : n ≡ v [MOD s] := by simpa [hn] using hunit.mul_right v
    rw [hmod, Nat.div_add_mod']
  have hsplit : UnitSplit n s (n % s) x (v / s) :=
    { eq := by rw [← hu', ← hv', hn]
      x_pos := Nat.pos_of_ne_zero fun hzero => by simp [hzero] at hu'; omega
      one_lt := hv' ▸ hv
      t_pos := Nat.pos_of_ne_zero hne
      t_lt := Nat.mod_lt n hs
      lt_cube := hcube }
  generalize v / s = y at hsplit
  generalize htdef : n % s = t at hsplit hne
  have hrest : (n - t) / s = x * (y * s) + x * t + y := by
    have hexpand : n = s * (x * (y * s) + x * t + y) + t := by
      rw [hsplit.eq]
      ring
    rw [hexpand, Nat.add_sub_cancel, Nat.mul_div_cancel_left _ hs]
  have hlarge : ¬ n ≤ s := by
    have hle : s ≤ x * s := Nat.le_mul_of_pos_left s hsplit.x_pos
    have hle' : u * 1 ≤ u * v := Nat.mul_le_mul_left u hv.le
    omega
  unfold mayFactorWithUnit
  rw [if_neg hlarge]
  dsimp only
  rw [htdef, hrest]
  refine Scheme.splitsFrom_eq (x := x) (y := y) hsplit
    ⟨by simp, hsplit.t_pos, hs, Nat.mod_lt _ hs, ?_, ?_⟩ ?_
  · simp [Int.modEq_iff_dvd]
  · dsimp only
    rw [Int.natCast_mod]
    refine Int.ModEq.trans ?_ (Int.mod_modEq _ _).symm
    refine (Int.modEq_iff_dvd.mpr ⟨x * y, ?_⟩)
    push_cast
    ring
  · have hpos : (0 : Int) ≤ x * s := Int.mul_nonneg (Int.natCast_nonneg x) (Int.natCast_nonneg s)
    simp
    omega

end Dataflow.Arithmetic
