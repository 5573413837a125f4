import Dataflow.Proofs.Graph.Refusals
import Dataflow.Proofs.Protocol.Wiring

namespace Dataflow

open Dataflow.Action

/-- Whether an operation failed because terms did not divide or cancel. -/
def Failure.isArithmetic : Failure → Bool
  | .negativePower .. | .missingPower .. | .indivisible .. | .unintegral .. => true
  | _ => false

/-- A failure for other reasons than arithmetic. -/
def Unarithmetic (e : Failure) : Prop :=
  e.isArithmetic = false

private theorem unarithmetic_of_isRefusal {e : Failure} (h : e.isRefusal = true) :
    Unarithmetic e := by
  cases e <;> first | rfl | cases h

private theorem Repetitions.unarithmetic_of_get {table : Repetitions} {a : Actor} {e : Failure}
    (h : table.get a = .error e) : Unarithmetic e := by
  unfold get at h
  split at h <;> cases h
  rfl

namespace Workspace

/-- Each user of a parameter fires a whole number of times for each firing of its period actor. -/
def Harmless (table : Repetitions) (p : Protocol) : Prop :=
  ∀ parameter, ∀ source ∈ p.source? parameter, ∀ user ∈ p.usersOf parameter,
    (table.count user).Legible ∧ (table.count source).divides (table.count user) = true

variable {table : Repetitions} {parameter : String} {source : Actor} {w w' : Workspace}
  {p : Protocol}

private theorem onGraph_keeps {α : Type} {action : Action Graph α} :
    (onGraph action).Keeps fun w => w.protocol = p :=
  (keeps_true action).within (fun _ _ => trivial) fun _ _ hw _ => hw

private theorem connectUser_keeps {sourceCount : Monomial} {index : Nat} {user : Actor} :
    (connectUser table parameter source sourceCount index user).Keeps fun w => w.protocol = p := by
  unfold connectUser
  refine (keeps_ofExcept _).bind fun _ => (keeps_ofExcept _).bind fun _ => ?_
  refine (keeps_ofExcept _).bind fun _ => onGraph_keeps.bind fun _ => ?_
  exact onGraph_keeps.bind fun _ => onGraph_keeps

private theorem connectUsers_keeps {sourceCount : Monomial} {index : Nat} {users : List Actor} :
    (connectUsers table parameter source sourceCount index users).Keeps
      fun w => w.protocol = p := by
  induction users generalizing index with
  | nil => exact keeps_pure _
  | cons user users ih =>
    refine keeps_get_bind fun w hw => ?_
    split
    · exact ih w hw
    · exact connectUser_keeps.bind (fun _ => ih.bind fun _ => keeps_pure _) w hw

private theorem connectParameter_keeps :
    (connectParameter table parameter).Keeps fun w => w.protocol = p := by
  refine keeps_get_bind fun w hw => ?_
  dsimp only
  split
  · exact hw
  · exact (keeps_ofExcept _).bind (fun _ => connectUsers_keeps) w hw

section Deliveries

variable {P : Failure → Prop} (hrefusal : ∀ e : Failure, e.isRefusal = true → P e)
include hrefusal

/-- A delivery to a user whose count is a multiple of the period actor's fails when the graph refuses
it, when the rate cannot be written, or when the user has no count. -/
theorem connectUser_failsOnly {index : Nat} {user : Actor}
    (hmissing : ∀ e, table.get user = .error e → P e)
    (hwrite : ∀ e, ((table.count user).strike (table.count source)).render = .error e → P e)
    (hdivides : (table.count source).divides (table.count user) = true) :
    (connectUser table parameter source (table.count source) index user).FailsOnly
      (fun w => w.protocol = p) P := by
  unfold connectUser
  refine (failsOnly_lift hmissing).bind (keeps_ofExcept _) fun _ count _ _ hcount => ?_
  obtain rfl := Repetitions.count_of_get_eq_ok (lift_eq_ok_iff.mp hcount).1
  have hdiv := Monomial.div_eq_ok_iff.mpr ⟨Monomial.divides_iff.mp hdivides, rfl⟩
  refine (failsOnly_lift fun e he => ?_).bind (keeps_ofExcept _) fun _ ratio _ _ hratio => ?_
  · rw [hdiv] at he
    cases he
  obtain ⟨-, rfl⟩ := Monomial.div_eq_ok_iff.mp (lift_eq_ok_iff.mp hratio).1
  refine (failsOnly_lift hwrite).bind (keeps_ofExcept _) fun _ text _ _ _ => ?_
  refine (onGraph_failsOnly (Graph.addPort_failsOnly.mono hrefusal)).bind onGraph_keeps
    fun _ _ _ _ _ => ?_
  refine (onGraph_failsOnly (Graph.ensurePort_failsOnly.mono hrefusal)).bind onGraph_keeps
    fun _ _ _ _ _ => ?_
  exact onGraph_failsOnly ((Graph.addChannel_failsOnly (Int.le_refl 0)).mono hrefusal)

private theorem connectUsers_failsOnly {index : Nat} {users : List Actor}
    (hmissing : ∀ user ∈ users, ∀ e, table.get user = .error e → P e)
    (hwrite : ∀ user ∈ users, ∀ e,
      ((table.count user).strike (table.count source)).render = .error e → P e)
    (husers : ∀ user ∈ users, (table.count source).divides (table.count user) = true) :
    (connectUsers table parameter source (table.count source) index users).FailsOnly
      (fun w => w.protocol = p) P := by
  induction users generalizing index with
  | nil => exact failsOnly_pure _
  | cons user users ih =>
    obtain ⟨hget, hgets⟩ := List.forall_mem_cons.mp hmissing
    obtain ⟨hwritten, hwrites⟩ := List.forall_mem_cons.mp hwrite
    obtain ⟨hdivides, hrest⟩ := List.forall_mem_cons.mp husers
    refine failsOnly_get_bind fun w _ => ?_
    split
    · exact ih hgets hwrites hrest
    · refine (connectUser_failsOnly hrefusal hget hwritten hdivides).bind connectUser_keeps
        fun _ _ _ _ _ => ?_
      exact (ih hgets hwrites hrest).bind connectUsers_keeps fun _ _ _ _ _ => failsOnly_pure _

variable (hmissing : ∀ parameter, ∀ source ∈ p.source? parameter,
  ∀ a ∈ source :: p.usersOf parameter, ∀ e, table.get a = .error e → P e)
  (hwrite : ∀ parameter, ∀ source ∈ p.source? parameter, ∀ user ∈ p.usersOf parameter, ∀ e,
    ((table.count user).strike (table.count source)).render = .error e → P e)
include hmissing hwrite

private theorem connectParameter_failsOnly (hp : Harmless table p) :
    (connectParameter table parameter).FailsOnly (fun w => w.protocol = p) P := by
  refine failsOnly_get_bind fun w hw => ?_
  dsimp only
  rw [hw]
  cases hsource : p.source? parameter with
  | none => exact failsOnly_pure _
  | some source =>
    obtain ⟨hget, hgets⟩ := List.forall_mem_cons.mp (hmissing parameter source hsource)
    refine (failsOnly_lift hget).bind (keeps_ofExcept _) fun _ count _ _ hcount => ?_
    obtain rfl := Repetitions.count_of_get_eq_ok (lift_eq_ok_iff.mp hcount).1
    exact connectUsers_failsOnly hrefusal hgets (hwrite parameter source hsource)
      fun user huser => (hp parameter source hsource user huser).2

/-- Where every user fires a whole number of times for each firing of the period actor, the wiring
fails when it was done before, or as a delivery does. -/
theorem connectSources_eq_error {e : Failure} (hw : w.protocol = p) (hp : Harmless table p)
    (h : connectSources table w = .error e w') :
    (p.connected = true ∧ e = .alreadyConnected) ∨ P e := by
  rw [connectSources, get_bind_apply, hw] at h
  cases hconnected : p.connected with
  | true =>
    simp only [hconnected] at h
    obtain h | ⟨_, _, hthrow, -⟩ := bind_eq_error_iff.mp h
    · cases h
      exact .inl ⟨rfl, rfl⟩
    · cases hthrow
  | false =>
    simp only [hconnected] at h
    obtain h | ⟨_, _, hupdate, h⟩ := bind_eq_error_iff.mp h
    · cases h
    cases hupdate
    rw [get_bind_apply] at h
    obtain h | ⟨batches, w₁, -, h⟩ := bind_eq_error_iff.mp h
    · let begun (p : Protocol) : Protocol := { p with connected := true }
      have hdeliver : ∀ parameter, (connectParameter table parameter).FailsOnly
          (fun w => w.protocol = begun p) P :=
        fun _ => connectParameter_failsOnly hrefusal hmissing hwrite hp
      have hstate : begun w.protocol = begun p := congrArg begun hw
      exact .inr (failsOnly_mapM (fun parameter _ => hdeliver parameter)
        (fun _ _ => connectParameter_keeps) _ _ _ hstate h)
    · obtain h | ⟨_, _, -, h⟩ := bind_eq_error_iff.mp h
      · cases h
      · cases h

end Deliveries

/-- Where every user fires a whole number of times for each firing of the period actor, the wiring
never fails in arithmetic. -/
theorem unarithmetic_of_connectSources {e : Failure} (hp : Harmless table w.protocol)
    (h : connectSources table w = .error e w') : Unarithmetic e := by
  have hwrite : ∀ parameter, ∀ source ∈ w.protocol.source? parameter,
      ∀ user ∈ w.protocol.usersOf parameter, ∀ e,
        ((table.count user).strike (table.count source)).render = .error e → Unarithmetic e := by
    intro parameter source hsource user huser e he
    have hlegible : ((table.count user).strike (table.count source)).Legible :=
      (hp parameter source hsource user huser).1.strike _
    obtain rfl | ⟨rfl, -⟩ := hlegible.render_eq_error he <;> rfl
  obtain ⟨-, rfl⟩ | he := connectSources_eq_error (fun _ => unarithmetic_of_isRefusal)
    (fun _ _ _ _ _ _ => Repetitions.unarithmetic_of_get) hwrite rfl hp h
  · rfl
  · exact he

end Workspace

end Dataflow
