namespace Dataflow

/-- The outcome of an analysis: a result, or a violation of what it checks. -/
inductive Verdict (α ν : Type) where
  | success (value : α)
  | violated (evidence : ν)

namespace Verdict

variable {α ν ε : Type}

/-- The result, if there is one. -/
def value? : Verdict α ν → Option α
  | success value => some value
  | violated _ => none

/-- The violation, if there is one. -/
def evidence? : Verdict α ν → Option ν
  | success _ => none
  | violated evidence => some evidence

/-- Whether there is a result. -/
def isSuccess : Verdict α ν → Bool
  | success _ => true
  | violated _ => false

/-- The result, or the failure with which the violation is raised. -/
def unwrap (failure : ν → ε) : Verdict α ν → Except ε α
  | success value => .ok value
  | violated evidence => .error (failure evidence)

end Verdict

end Dataflow
