import Dataflow.Proofs.Except
import Dataflow.Proofs.Graph.Operation

namespace Dataflow

open Dataflow.Action

/-- Whether an addition was refused. Its name is taken, or there is nothing of a name that it needs,
or a port that it needs goes the other way. -/
def Failure.isRefusal : Failure → Bool
  | .duplicateActor _ | .unknownActor _ | .duplicatePort .. | .unknownPort ..
  | .wrongDirection .. => true
  | _ => false

namespace Graph

variable {I : Graph → Prop} {g : Graph} {type name : String} {direction : Direction} {e : Failure}

theorem isRefusal_of_actorNamed (h : g.actorNamed name = .error e) : e.isRefusal = true := by
  unfold actorNamed at h
  split at h <;> cases h
  rfl

theorem isRefusal_of_portNamed (h : g.portNamed type name = .error e) : e.isRefusal = true := by
  unfold portNamed at h
  split at h <;> cases h
  rfl

theorem isRefusal_of_endpoint {place : String × String} (h : g.endpoint place direction = .error e) :
    e.isRefusal = true := by
  obtain hactor | ⟨a, -, h⟩ := Except.bind_eq_error_iff.mp h
  · exact isRefusal_of_actorNamed hactor
  obtain hport | ⟨p, -, h⟩ := Except.bind_eq_error_iff.mp h
  · exact isRefusal_of_portNamed hport
  split at h <;> cases h
  rfl

theorem addPort_failsOnly {rate : Option String} :
    (addPort type name direction rate).FailsOnly I (·.isRefusal = true) := by
  intro g e g' _ h
  rw [addPort_eq] at h
  split at h <;> cases h
  rfl

theorem ensurePort_failsOnly {rate : String} :
    (ensurePort type name direction rate).FailsOnly I (·.isRefusal = true) := by
  intro g e g' hg h
  rw [ensurePort, get_bind_apply] at h
  split at h
  · obtain h | ⟨_, _, -, h⟩ := bind_eq_error_iff.mp h
    · exact addPort_failsOnly g e g' hg h
    · cases h
  · cases h

/-- A channel that is to hold no fewer than zero tokens is refused for its ends only. -/
theorem addChannel_failsOnly {source target : String × String} {spec : ChannelSpec}
    (htokens : 0 ≤ spec.initialTokens) :
    (addChannel source target spec).FailsOnly I (·.isRefusal = true) := by
  intro g e g' _ h
  rw [addChannel_eq, if_neg (Int.not_lt.mpr htokens)] at h
  split at h
  · cases h
  · rename_i hsource
    cases h
    exact isRefusal_of_endpoint hsource
  · rename_i htarget
    cases h
    exact isRefusal_of_endpoint htarget

end Graph

end Dataflow
