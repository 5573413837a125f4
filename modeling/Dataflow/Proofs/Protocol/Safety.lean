import Dataflow.Proofs.Action
import Dataflow.Proofs.Balance.Scaling
import Dataflow.Proofs.Except
import Dataflow.Proofs.Text.Order
import Dataflow.Protocol.Safety

namespace Dataflow

namespace Protocol

/-- The first of some users whose count is no multiple of the period actor's. -/
def firstMisuse (table : Repetitions) (parameter : String) (sourceCount : Monomial)
    (users : List Actor) : Option Misuse :=
  (users.find? fun user => !sourceCount.divides (table.count user)).map fun user =>
    ⟨parameter, user, table.count user, sourceCount⟩

/-- The first misuse of a parameter. -/
def misuseFor (p : Protocol) (table : Repetitions) (parameter : String) : Option Misuse :=
  (p.source? parameter).bind fun source =>
    firstMisuse table parameter (table.count source) (p.usersOf parameter)

variable {p : Protocol} {table : Repetitions}

private theorem misuseAmong?_eq {parameter : String} {sourceCount : Monomial} {users : List Actor}
    (hget : ∀ user ∈ users, table.get user = .ok (table.count user)) :
    misuseAmong? table parameter sourceCount users =
      .ok (firstMisuse table parameter sourceCount users) := by
  induction users with
  | nil => rfl
  | cons user users ih =>
    have ih := ih fun a ha => hget a (List.mem_cons_of_mem _ ha)
    unfold firstMisuse at ih ⊢
    cases hdivides : sourceCount.divides (table.count user) <;>
      simp [misuseAmong?, hget user List.mem_cons_self, hdivides, ih, bind, Except.bind, pure,
        Except.pure]

theorem misuseOf?_eq {parameters : List String}
    (hsource : ∀ parameter ∈ parameters, ∃ source, p.source? parameter = some source ∧
      table.get source = .ok (table.count source))
    (husers : ∀ parameter ∈ parameters, ∀ user ∈ p.usersOf parameter,
      table.get user = .ok (table.count user)) :
    p.misuseOf? table parameters = .ok (parameters.findSome? (p.misuseFor table)) := by
  induction parameters with
  | nil => rfl
  | cons parameter parameters ih =>
    have ih := ih (fun q hq => hsource q (List.mem_cons_of_mem _ hq))
      fun q hq => husers q (List.mem_cons_of_mem _ hq)
    rw [misuseOf?, List.findSome?_cons, misuseFor]
    obtain ⟨source, hfound, hget⟩ := hsource parameter List.mem_cons_self
    simp only [hfound, hget, misuseAmong?_eq (husers parameter List.mem_cons_self),
      Option.bind_some, bind, Except.bind]
    cases firstMisuse table parameter (table.count source) (p.usersOf parameter) with
    | none => exact ih
    | some misuse => rfl

theorem misuseFor_eq_some_iff {parameter : String} {misuse : Misuse} :
    p.misuseFor table parameter = some misuse ↔ ∃ source user before after,
      p.source? parameter = some source ∧ p.usersOf parameter = before ++ user :: after ∧
      (∀ other ∈ before, (table.count source).divides (table.count other) = true) ∧
      (table.count source).divides (table.count user) = false ∧
      misuse = ⟨parameter, user, table.count user, table.count source⟩ := by
  simp only [misuseFor, Option.bind_eq_some_iff, firstMisuse, Option.map_eq_some_iff,
    List.find?_eq_some_iff_append, Bool.not_eq_true', Bool.not_not]
  constructor
  · rintro ⟨source, hsource, user, ⟨hdivides, before, after, husers, hbefore⟩, rfl⟩
    exact ⟨source, user, before, after, hsource, husers, hbefore, hdivides, rfl⟩
  · rintro ⟨source, user, before, after, hsource, husers, hbefore, hdivides, rfl⟩
    exact ⟨source, hsource, user, ⟨hdivides, before, after, husers, hbefore⟩, rfl⟩

theorem misuseFor_eq_none_iff {parameter : String} :
    p.misuseFor table parameter = none ↔ ∀ source ∈ p.source? parameter,
      ∀ user ∈ p.usersOf parameter, (table.count source).divides (table.count user) = true := by
  simp [misuseFor, Option.bind_eq_none_iff, firstMisuse, List.find?_eq_none]

end Protocol

namespace Workspace

open Dataflow.Action Text

variable {table : Repetitions} {w : Workspace}

theorem checkSafety_of_none (h : w.protocol.misuse? table = .ok none) :
    ∃ journal, checkSafety table w = .ok (.success ()) { w with journal } := by
  refine ⟨w.journal.note .debug
    s!"Parameter modification is safe for {quoteList (sortTexts w.protocol.modifiedParameters)}", ?_⟩
  rw [checkSafety, get_bind_apply, lift_bind_apply, h]
  rfl

theorem checkSafety_of_some {misuse : Misuse} {text : String}
    (h : w.protocol.misuse? table = .ok (some misuse)) (hreport : misuse.report = .ok text) :
    ∃ journal, checkSafety table w = .ok (.violated misuse) { w with journal } := by
  refine ⟨w.journal.note .warning text, ?_⟩
  rw [checkSafety, get_bind_apply, lift_bind_apply, h]
  show ((liftM misuse.report : Action Workspace String) >>= _) w = _
  rw [lift_bind_apply, hreport]
  rfl

end Workspace

end Dataflow
