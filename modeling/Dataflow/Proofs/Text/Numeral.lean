import Dataflow.Text.Numeral
import Mathlib.Algebra.Group.Nat.Defs

namespace Dataflow.Text

/-- The digits that are written are those of the first script. -/
theorem digitValue?_of_isDigit {c : Char} (h : c.isDigit = true) :
    digitValue? c = some (c.toNat - 0x30) := by
  have hrange : 0x30 ≤ c.toNat ∧ c.toNat ≤ 0x39 := by
    simpa [Char.isDigit, UInt32.le_iff_toNat_le] using h
  have hin : (decide (0x30 ≤ c.toNat) && decide (c.toNat < 0x30 + 10)) = true := by
    rw [Bool.and_eq_true, decide_eq_true_eq, decide_eq_true_eq]
    omega
  have hfind (more : List Nat) :
      (0x30 :: more).find? (fun z => z ≤ c.toNat && c.toNat < z + 10) = some 0x30 :=
    List.find?_cons_of_pos hin
  exact congrArg (Option.map (c.toNat - ·)) (hfind _)

theorem Numeral.value_repr (n : Nat) : value n.repr = n := by
  have hfold : ∀ digits : List Char, (∀ c ∈ digits, c.isDigit = true) → ∀ start,
      digits.foldl (fun n c => 10 * n + (digitValue? c).getD 0) start =
        Nat.ofDigitChars 10 digits start := by
    intro digits hdigits
    induction digits with
    | nil => exact fun _ => rfl
    | cons c digits ih =>
      intro start
      have hc := digitValue?_of_isDigit (hdigits c List.mem_cons_self)
      rw [List.foldl_cons, ih fun d hd => hdigits d (List.mem_cons_of_mem c hd), hc]
      rfl
  have hdigits : ∀ c ∈ Nat.toDigits 10 n, c.isDigit = true :=
    fun c hc => Nat.isDigit_of_mem_toDigits (by decide) (by decide) hc
  rw [value, Nat.toList_repr, hfold _ hdigits, Nat.ofDigitChars_ten_toDigits]

theorem Numeral.repr_injective : Function.Injective Nat.repr :=
  Function.LeftInverse.injective value_repr

/-- What is written is a numeral. -/
theorem isNumeral_repr (n : Nat) : isNumeral n.repr = true := by
  rw [isNumeral, Bool.and_eq_true, Bool.not_eq_true', List.isEmpty_eq_false_iff, List.all_eq_true,
    Nat.toList_repr]
  refine ⟨Nat.toDigits_ne_nil, fun c hc => ?_⟩
  rw [digitValue?_of_isDigit (Nat.isDigit_of_mem_toDigits (by decide) (by decide) hc)]
  rfl

theorem Numeral.write_eq_ok_iff {n : Nat} {s : String} :
    write n = .ok s ↔ isWritable n = true ∧ n.repr = s := by
  unfold write
  split <;> simp_all

theorem Numeral.isWritable_iff {n : Nat} : isWritable n = true ↔ n < 10 ^ maxDigits := by
  rw [isWritable, decide_eq_true_eq, Nat.pow_eq]

theorem Numeral.isWritable_iff_length {n : Nat} :
    isWritable n = true ↔ n.repr.length ≤ maxDigits :=
  isWritable_iff.trans (Nat.length_repr_le_iff (by decide)).symm

theorem Numeral.read_repr {n : Nat} (h : isWritable n = true) : read n.repr = .ok n := by
  rw [read, if_pos (isWritable_iff_length.mp h), value_repr]

/-- A number that is no greater than one that can be written can be written. -/
theorem Numeral.isWritable_of_le {m n : Nat} (hle : m ≤ n) (h : isWritable n = true) :
    isWritable m = true :=
  isWritable_iff.mpr (Nat.lt_of_le_of_lt hle (isWritable_iff.mp h))

end Dataflow.Text
