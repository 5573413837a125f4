import Dataflow.Proofs.Balance.Starts
import Dataflow.Proofs.Monomial.Unreadable

namespace Dataflow

open Text Dataflow.Action Dataflow.Balance

/-- Whether a failure is that of a graph that is not connected. -/
def Failure.isDisconnected : Failure → Bool
  | .disconnected .. => true
  | _ => false

section Writing

variable {e : Failure}

private theorem Failure.isDisconnected_of_isUnreadable (h : e.isUnreadable = true) :
    e.isDisconnected = false := by
  cases e <;> first | rfl | cases h

private theorem Monomial.isUnreadable_of_coefficient {m : Monomial} (h : m.coefficient = .error e) :
    e.isUnreadable = true := by
  obtain ⟨entry, -, product, hstep⟩ := Except.exists_of_foldlM_eq_error h
  split at hstep
  · obtain hread | ⟨_, -, hstep⟩ := Except.bind_eq_error_iff.mp hstep
    · exact isUnreadable_of_read hread
    · cases hstep
  · cases hstep

private theorem Monomial.isDisconnected_of_render {m : Monomial} (h : m.render = .error e) :
    e.isDisconnected = false := by
  obtain hsymbols | ⟨symbols, -, h⟩ := Except.bind_eq_error_iff.mp h
  · rw [symbols_eq] at hsymbols
    split at hsymbols <;> cases hsymbols
    rfl
  · refine Failure.isDisconnected_of_isUnreadable ?_
    obtain hcoefficient | ⟨n, -, h⟩ := Except.bind_eq_error_iff.mp h
    · exact isUnreadable_of_coefficient hcoefficient
    · split at h
      · exact isUnreadable_of_write h
      · split at h
        · cases h
        · obtain hwrite | ⟨_, -, h⟩ := Except.bind_eq_error_iff.mp h
          · exact isUnreadable_of_write hwrite
          · cases h

private theorem Repetitions.isDisconnected_of_render {table : Repetitions} {g : Graph}
    (h : table.render g = .error e) : e.isDisconnected = false := by
  obtain hrows | ⟨_, -, h⟩ := Except.bind_eq_error_iff.mp h
  · obtain hitems | ⟨_, -, hrows⟩ := Except.bind_eq_error_iff.mp hrows
    · obtain ⟨entry, -, hitem⟩ := Except.exists_of_mapM_eq_error hitems
      obtain hactor | ⟨_, -, hitem⟩ := Except.bind_eq_error_iff.mp hitem
      · unfold Graph.actorAt at hactor
        split at hactor <;> cases hactor
        rfl
      · cases hitem
    · obtain ⟨item, -, hrow⟩ := Except.exists_of_mapM_eq_error hrows
      obtain htext | ⟨_, -, hrow⟩ := Except.bind_eq_error_iff.mp hrow
      · exact Monomial.isDisconnected_of_render htext
      · cases hrow
  · cases h

end Writing

/-- An action that does not fail with a disconnection. -/
def Action.Sparing {σ α : Type} (action : Action σ α) : Prop :=
  action.FailsOnly (fun _ => True) (·.isDisconnected = false)

namespace Action

variable {σ τ α β : Type}

private theorem Sparing.bind {action : Action σ α} {next : α → Action σ β} (h : action.Sparing)
    (hnext : ∀ a, (next a).Sparing) : (action >>= next).Sparing :=
  FailsOnly.bind h (keeps_true _) fun _ a _ _ _ => hnext a

private theorem sparing_pure (a : α) : (pure a : Action σ α).Sparing :=
  failsOnly_pure a

private theorem sparing_lift {result : Except Failure α}
    (h : ∀ e, result = .error e → e.isDisconnected = false) :
    (liftM result : Action σ α).Sparing :=
  failsOnly_lift h

end Action

private theorem RateCache.rate_sparing {g : Graph} {p : Port} : (rate g p).Sparing := by
  have hfound : (rate? g p).Sparing := by
    refine failsOnly_get_bind fun cache _ => ?_
    cases cache.entries.lookup p.id with
    | some m => exact sparing_pure _
    | none =>
      cases g.rateText? p with
      | none => exact sparing_pure _
      | some text =>
        refine Sparing.bind (sparing_lift fun e he => ?_) fun m => ?_
        · exact Failure.isDisconnected_of_isUnreadable (Monomial.isUnreadable_of_parse he)
        · exact Sparing.bind failsOnly_modify fun _ => sparing_pure _
  refine hfound.bind fun found => ?_
  cases found with
  | some m => exact sparing_pure _
  | none => exact failsOnly_throw rfl

namespace Balance

variable {g : Graph} {fractions : Fractions}

private theorem isDisconnected_of_fraction {a : Actor} {e : Failure}
    (h : fraction fractions a = .error e) : e.isDisconnected = false := by
  unfold fraction at h
  split at h <;> cases h
  rfl

private theorem imbalance_sparing {c : Channel} : (imbalance g fractions c).Sparing := by
  refine Sparing.bind (sparing_lift fun _ => isDisconnected_of_fraction) fun source => ?_
  refine RateCache.rate_sparing.bind fun produced => ?_
  refine Sparing.bind (sparing_lift fun _ => isDisconnected_of_fraction) fun target => ?_
  exact RateCache.rate_sparing.bind fun consumed => sparing_pure _

private theorem mismatch?_sparing {channels : List Channel} :
    (mismatch? g fractions channels).Sparing := by
  induction channels with
  | nil => exact sparing_pure _
  | cons c channels ih =>
    refine imbalance_sparing.bind fun ratio => ?_
    split
    · exact ih
    · exact sparing_pure _

private theorem isDisconnected_of_collapse {r : Ratio} {e : Failure} (h : r.collapse = .error e) :
    e.isDisconnected = false := by
  unfold Ratio.collapse at h
  split at h
  · cases h
  · obtain hrender | ⟨text, -, h⟩ := Except.bind_eq_error_iff.mp h
    · exact (Ratio.part_of_render_eq_error hrender).elim Monomial.isDisconnected_of_render
        Monomial.isDisconnected_of_render
    · cases h
      rfl

private theorem isDisconnected_of_scale {e : Failure} (h : scale g fractions = .error e) :
    e.isDisconnected = false := by
  obtain hentries | ⟨_, -, h⟩ := Except.bind_eq_error_iff.mp h
  · obtain ⟨a, -, hentry⟩ := Except.exists_of_mapM_eq_error hentries
    obtain hcount | ⟨_, -, hentry⟩ := Except.bind_eq_error_iff.mp hentry
    · obtain hfraction | ⟨f, -, hcollapse⟩ := Except.bind_eq_error_iff.mp hcount
      · exact isDisconnected_of_fraction hfraction
      · exact isDisconnected_of_collapse hcollapse
    · cases hentry
  · cases h

end Balance

private theorem Workspace.noteBalance_sparing {g : Graph} {start : Actor}
    {verdict : Verdict Repetitions Inconsistency} : (noteBalance g start verdict).Sparing := by
  cases verdict with
  | success table =>
    exact Sparing.bind (sparing_lift fun _ => table.isDisconnected_of_render) fun _ =>
      failsOnly_modify
  | violated evidence =>
    have hparts {e : Failure} (h : evidence.ratio.numerator.render = .error e ∨
        evidence.ratio.denominator.render = .error e) : e.isDisconnected = false :=
      h.elim Monomial.isDisconnected_of_render Monomial.isDisconnected_of_render
    refine Sparing.bind (sparing_lift fun _ he => hparts (Ratio.part_of_render_eq_error he))
      fun ratio => ?_
    refine Sparing.bind failsOnly_modify fun _ => ?_
    exact Sparing.bind
      (sparing_lift fun _ he => hparts (Inconsistency.part_of_report_eq_error he))
      fun report => failsOnly_modify

namespace Balance

variable {g : Graph} {start : Actor} {cache rates : RateCache} {fractions : Fractions}

/-- When counts were carried over the spanning tree, the solver goes by their number. -/
theorem solveFrom_disconnected_iff
    (h : propagate g [(start.id, .one)] (spanningTree g start) cache = .ok fractions rates)
    {actors reached : Nat} :
    (∃ cache', solveFrom g start cache = .error (.disconnected actors reached) cache') ↔
      fractions.length ≠ g.actors.length ∧ actors = g.actors.length ∧
        reached = fractions.length := by
  constructor
  · rintro ⟨cache', hfails⟩
    obtain hpropagate | ⟨found, kept, hfound, hfails⟩ := bind_eq_error_iff.mp hfails
    · cases h.symm.trans hpropagate
    · cases h.symm.trans hfound
      split at hfails
      · rename_i hlength
        obtain hthrow | ⟨_, _, hthrow, -⟩ := bind_eq_error_iff.mp hfails
        · cases hthrow
          exact ⟨hlength, rfl, rfl⟩
        · cases hthrow
      · obtain hmismatch | ⟨found, _, -, hfails⟩ := bind_eq_error_iff.mp hfails
        · cases mismatch?_sparing _ _ _ trivial hmismatch
        · cases found with
          | some evidence => cases hfails
          | none =>
            obtain hscale | ⟨_, _, -, hfails⟩ := bind_eq_error_iff.mp hfails
            · cases isDisconnected_of_scale (lift_eq_error_iff.mp hscale).1
            · cases hfails
  · rintro ⟨hlength, rfl, rfl⟩
    refine ⟨rates, bind_eq_error_iff.mpr (.inr ⟨fractions, rates, h, ?_⟩)⟩
    rw [if_pos hlength]
    rfl

end Balance

/-- `Workspace.solve` fails with a disconnection if and only if `Balance.solve` does. -/
theorem Workspace.solve_disconnected_iff {w : Workspace} {start : Actor} {fractions : Fractions}
    {rates : RateCache} (hstart : start ∈ w.graph.actors)
    (h : propagate w.graph [(start.id, .one)] (spanningTree w.graph start) w.rates =
      .ok fractions rates) {actors reached : Nat} :
    (∃ w', solve (some start) w = .error (.disconnected actors reached) w') ↔
      fractions.length ≠ w.graph.actors.length ∧ actors = w.graph.actors.length ∧
        reached = fractions.length := by
  obtain ⟨first, hfirst⟩ : ∃ first, w.graph.actors.head? = some first :=
    Option.isSome_iff_exists.mp (List.isSome_head?.mpr (List.ne_nil_of_mem hstart))
  have hsolve : Balance.solve w.graph (some start) = solveFrom w.graph start := by
    rw [Balance.solve, hfirst]
    rfl
  rw [← solveFrom_disconnected_iff h, ← hsolve]
  constructor
  · rintro ⟨w', hfails⟩
    rw [solve, get_bind_apply] at hfails
    obtain hfails | ⟨verdict, _, -, hfails⟩ := bind_eq_error_iff.mp hfails
    · exact within_eq_error hfails
    · simp only [hfirst] at hfails
      obtain hnote | ⟨_, _, -, hfails⟩ := bind_eq_error_iff.mp hfails
      · cases noteBalance_sparing _ _ _ trivial hnote
      · cases hfails
  · rintro ⟨cache', hfails⟩
    refine ⟨{ w with rates := cache' }, ?_⟩
    rw [solve, get_bind_apply]
    exact bind_eq_error_iff.mpr (.inl (within_eq_error_iff.mpr ⟨cache', hfails, rfl⟩))

end Dataflow
