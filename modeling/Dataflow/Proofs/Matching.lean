import Dataflow.Proofs.Action

namespace Dataflow.Action

variable {σ τ α β : Type}

/-- Two outcomes of actions with the same result or failure, and with states that are related. -/
inductive EndsAlike (R : σ → τ → Prop) :
    EStateM.Result Failure σ α → EStateM.Result Failure τ α → Prop
  | ok (a : α) {s : σ} {t : τ} (h : R s t) : EndsAlike R (.ok a s) (.ok a t)
  | error (e : Failure) {s : σ} {t : τ} (h : R s t) : EndsAlike R (.error e s) (.error e t)

/-- From related states two actions end alike. -/
def Matches (R : σ → τ → Prop) (action : Action σ α) (action' : Action τ α) : Prop :=
  ∀ s t, R s t → EndsAlike R (action s) (action' t)

/-- The result of an action, without its state. -/
def outcome (action : Action σ α) (s : σ) : Except Failure α :=
  match action s with
  | .ok a _ => .ok a
  | .error e _ => .error e

variable {R : σ → τ → Prop} {action : Action σ α} {action' : Action τ α}

theorem EndsAlike.mono {Q : σ → τ → Prop} {ending : EStateM.Result Failure σ α}
    {ending' : EStateM.Result Failure τ α}
    (h : EndsAlike R ending ending') (himp : ∀ s t, R s t → Q s t) :
    EndsAlike Q ending ending' := by
  cases h with
  | ok a h => exact .ok a (himp _ _ h)
  | error e h => exact .error e (himp _ _ h)

theorem EndsAlike.ite {c : Prop} [Decidable c] {yes no : EStateM.Result Failure σ α}
    {yes' no' : EStateM.Result Failure τ α}
    (hyes : EndsAlike R yes yes') (hno : EndsAlike R no no') :
    EndsAlike R (if c then yes else no) (if c then yes' else no') := by
  split
  · exact hyes
  · exact hno

theorem Matches.outcome_eq (h : Matches R action action') {s : σ} {t : τ} (hst : R s t) :
    action'.outcome t = action.outcome s := by
  have hends := h s t hst
  unfold outcome
  generalize action s = ending at hends
  generalize action' t = ending' at hends
  cases hends <;> rfl

theorem Matches.after (h : Matches R action action') {s : σ} {t : τ} (hst : R s t) :
    R (action.after s) (action'.after t) := by
  have hends := h s t hst
  unfold Action.after
  generalize action s = ending at hends
  generalize action' t = ending' at hends
  cases hends with
  | ok _ h => exact h
  | error _ h => exact h

theorem matches_pure (a : α) : Matches R (pure a : Action σ α) (pure a : Action τ α) :=
  fun _ _ hst => .ok a hst

theorem matches_throw (e : Failure) : Matches R (throw e : Action σ α) (throw e : Action τ α) :=
  fun _ _ hst => .error e hst

theorem matches_lift (result : Except Failure α) :
    Matches R (liftM result : Action σ α) (liftM result : Action τ α) := by
  intro s t hst
  cases result with
  | ok a => exact .ok a hst
  | error e => exact .error e hst

theorem matches_modify {change : σ → σ} {change' : τ → τ}
    (h : ∀ s t, R s t → R (change s) (change' t)) :
    Matches R (modify change : Action σ PUnit) (modify change' : Action τ PUnit) :=
  fun s t hst => .ok _ (h s t hst)

/-- An action matches itself when nothing but the state itself is related to a state. -/
theorem matches_eq (action : Action σ α) : Matches Eq action action := by
  rintro s _ rfl
  cases action s with
  | ok a t => exact .ok a rfl
  | error e t => exact .error e rfl

/-- Actions that end alike go on alike, if what follows matches. -/
theorem EndsAlike.bind {next : α → Action σ β} {next' : α → Action τ β} {s : σ} {t : τ}
    (h : EndsAlike R (action s) (action' t)) (hnext : ∀ a, Matches R (next a) (next' a)) :
    EndsAlike R ((action >>= next) s) ((action' >>= next') t) := by
  show EndsAlike R (EStateM.bind action next s) (EStateM.bind action' next' t)
  unfold EStateM.bind
  -- The actions may be anything here, so the cases are those of their ends.
  generalize action s = ending at h
  generalize action' t = ending' at h
  cases h with
  | ok a h => exact hnext a _ _ h
  | error e h => exact .error e h

theorem Matches.bind {next : α → Action σ β} {next' : α → Action τ β} (h : Matches R action action')
    (hnext : ∀ a, Matches R (next a) (next' a)) :
    Matches R (action >>= next) (action' >>= next') :=
  fun s t hst => (h s t hst).bind hnext

/-- A look-up that succeeds may be made by one of the actions alone. -/
theorem Matches.ok_bind {action : Action σ β} {a : α} {next : α → Action τ β}
    (h : Matches R action (next a)) :
    Matches R action ((liftM (.ok a : Except Failure α) : Action τ α) >>= next) :=
  h

theorem Matches.map (f : α → β) (h : Matches R action action') :
    Matches R (f <$> action) (f <$> action') := by
  rw [map_eq_pure_bind, map_eq_pure_bind]
  exact h.bind fun a => matches_pure (f a)

theorem Matches.ite {c : Prop} [Decidable c] {yes no : Action σ α} {yes' no' : Action τ α}
    (hyes : Matches R yes yes') (hno : Matches R no no') :
    Matches R (if c then yes else no) (if c then yes' else no') := by
  split
  · exact hyes
  · exact hno

/-- What follows the reading of the states may rely on their being related. -/
theorem matches_get_bind {next : σ → Action σ β} {next' : τ → Action τ β}
    (h : ∀ s t, R s t → Matches R (next s) (next' t)) :
    Matches R (get >>= next) (get >>= next') :=
  fun s t hst => h s t hst s t hst

theorem matches_forM {items : List α} {body : α → Action σ PUnit} {body' : α → Action τ PUnit}
    (h : ∀ a, Matches R (body a) (body' a)) : Matches R (items.forM body) (items.forM body') := by
  induction items with
  | nil => exact matches_pure _
  | cons a items ih => exact (h a).bind fun _ => ih

theorem matches_mapM {items : List α} {step : α → Action σ β} {step' : α → Action τ β}
    (h : ∀ a, Matches R (step a) (step' a)) : Matches R (items.mapM step) (items.mapM step') := by
  induction items with
  | nil => exact matches_pure _
  | cons a items ih =>
    rw [List.mapM_cons, List.mapM_cons]
    exact (h a).bind fun _ => ih.bind fun _ => matches_pure _

/-- Actions on parts of the states match when the parts are related, and stay so when they are
written back. -/
theorem Matches.within {ρ ρ' : Type} {Q : ρ → ρ' → Prop} {read : σ → ρ} {write : σ → ρ → σ}
    {read' : τ → ρ'} {write' : τ → ρ' → τ} {part : Action ρ α} {part' : Action ρ' α}
    (h : Matches Q part part') (hread : ∀ s t, R s t → Q (read s) (read' t))
    (hwrite : ∀ s t r r', R s t → Q r r' → R (write s r) (write' t r')) :
    Matches R (part.within read write) (part'.within read' write') := by
  intro s t hst
  have hpart := h _ _ (hread s t hst)
  unfold Action.within
  generalize part (read s) = ending at hpart
  generalize part' (read' t) = ending' at hpart
  cases hpart with
  | ok a h => exact .ok a (hwrite _ _ _ _ hst h)
  | error e h => exact .error e (hwrite _ _ _ _ hst h)

end Dataflow.Action
