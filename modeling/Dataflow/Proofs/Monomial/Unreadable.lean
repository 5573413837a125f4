import Dataflow.Monomial
import Dataflow.Proofs.Except

namespace Dataflow

open Text

/-- Whether a rate could not be read. -/
def Failure.isUnreadable : Failure → Bool
  | .zeroRate .. | .malformedRate .. | .numeralTooLong _ | .numberTooLarge => true
  | _ => false

namespace Monomial

variable {text token : String} {e : Failure}

theorem isUnreadable_of_write {n : Nat} (h : Numeral.write n = .error e) :
    e.isUnreadable = true := by
  unfold Numeral.write at h
  split at h <;> cases h
  rfl

theorem isUnreadable_of_read (h : Numeral.read text = .error e) : e.isUnreadable = true := by
  unfold Numeral.read at h
  split at h <;> cases h
  rfl

/-- A number that is not zero has prime factors, whatever becomes of writing them down. -/
theorem isUnreadable_of_ofNumber {n : Nat} (hn : n ≠ 0) (h : Factors.ofNumber n = .error e) :
    e.isUnreadable = true := by
  have hpos : ¬ (n : Int) < 1 := by omega
  rw [Factors.ofNumber, if_neg hpos] at h
  obtain ⟨p, -, f, hstep⟩ := Except.exists_of_foldlM_eq_error h
  obtain hwrite | ⟨_, -, hstep⟩ := Except.bind_eq_error_iff.mp hstep
  · exact isUnreadable_of_write hwrite
  · cases hstep

private theorem isUnreadable_of_readToken (h : readToken text token = .error e) :
    e.isUnreadable = true := by
  unfold readToken at h
  split at h
  · obtain hread | ⟨n, -, h⟩ := Except.bind_eq_error_iff.mp h
    · exact isUnreadable_of_read hread
    · split at h
      · cases h
        rfl
      · rename_i hn
        exact isUnreadable_of_ofNumber hn h
  · split at h <;> cases h
    rfl

theorem isUnreadable_of_parse (h : parse text = .error e) : e.isUnreadable = true := by
  obtain ⟨token, -, f, hstep⟩ :=
    Except.exists_of_foldlM_eq_error (Except.map_eq_error_iff.mp h)
  exact isUnreadable_of_readToken (Except.map_eq_error_iff.mp hstep)

end Monomial

end Dataflow
