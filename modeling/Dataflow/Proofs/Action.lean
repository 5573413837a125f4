import Dataflow.Action

namespace Dataflow.Action

variable {σ τ α β : Type}

/-- The state that an action leaves behind, whether it succeeds or fails. -/
def after (action : Action σ α) (s : σ) : σ :=
  match action s with
  | .ok _ s => s
  | .error _ s => s

theorem after_of_ok {action : Action σ α} {s t : σ} {a : α} (h : action s = .ok a t) :
    action.after s = t := by
  simp [after, h]

theorem after_of_error {action : Action σ α} {s t : σ} {e : Failure} (h : action s = .error e t) :
    action.after s = t := by
  simp [after, h]

/-- The failure in which an action ends. -/
def failure? (action : Action σ α) (s : σ) : Option Failure :=
  match action s with
  | .ok _ _ => none
  | .error e _ => some e

theorem failure?_eq_some_iff {action : Action σ α} {s : σ} {e : Failure} :
    action.failure? s = some e ↔ ∃ t, action s = .error e t := by
  cases h : action s <;> simp [failure?, h]

theorem failure?_eq_none_iff {action : Action σ α} {s : σ} :
    action.failure? s = none ↔ ∃ a t, action s = .ok a t := by
  cases h : action s <;> simp [failure?, h]

theorem get_bind_apply (next : σ → Action σ β) (s : σ) : (get >>= next) s = next s s := rfl

theorem lift_bind_apply (result : Except Failure α) (next : α → Action σ β) (s : σ) :
    ((liftM result : Action σ α) >>= next) s =
      match result with
      | .ok a => next a s
      | .error e => .error e s := by
  cases result <;> rfl

theorem bind_of_ok {action : Action σ α} {next : α → Action σ β} {s t : σ} {a : α}
    (h : action s = .ok a t) : (action >>= next) s = next a t := by
  show EStateM.bind action next s = _
  rw [EStateM.bind, h]

theorem bind_of_error {action : Action σ α} {next : α → Action σ β} {s t : σ} {e : Failure}
    (h : action s = .error e t) : (action >>= next) s = .error e t := by
  show EStateM.bind action next s = _
  rw [EStateM.bind, h]

theorem bind_eq_ok_iff {action : Action σ α} {next : α → Action σ β} {s t : σ} {b : β} :
    (action >>= next) s = .ok b t ↔ ∃ a r, action s = .ok a r ∧ next a r = .ok b t := by
  show EStateM.bind action next s = .ok b t ↔ _
  unfold EStateM.bind
  constructor
  · intro h
    cases hstep : action s with
    | ok a r => exact ⟨a, r, rfl, by simpa [hstep] using h⟩
    | error e r => simp [hstep] at h
  · rintro ⟨a, r, hstep, hnext⟩
    simpa [hstep] using hnext

theorem bind_eq_error_iff {action : Action σ α} {next : α → Action σ β} {s t : σ} {e : Failure} :
    (action >>= next) s = .error e t ↔
      action s = .error e t ∨ ∃ a r, action s = .ok a r ∧ next a r = .error e t := by
  show EStateM.bind action next s = .error e t ↔ _
  unfold EStateM.bind
  cases hstep : action s with
  | error e' r => simp
  | ok a r =>
    constructor
    · exact fun h => .inr ⟨a, r, rfl, h⟩
    · rintro (h | ⟨b, r', h, hnext⟩)
      · cases h
      · cases h
        exact hnext

theorem bind_apply_congr {action action' : Action σ α} {next : α → Action σ β} {s t : σ}
    (h : action s = action' t) : (action >>= next) s = (action' >>= next) t := by
  show EStateM.bind action next s = EStateM.bind action' next t
  unfold EStateM.bind
  rw [h]

private theorem ofExcept_eq_ok_iff {result : Except Failure α} {s t : σ} {a : α} :
    ofExcept result s = .ok a t ↔ result = .ok a ∧ s = t := by
  cases result <;> simp [ofExcept]

theorem lift_eq_ok_iff {result : Except Failure α} {s t : σ} {a : α} :
    (liftM result : Action σ α) s = .ok a t ↔ result = .ok a ∧ s = t :=
  ofExcept_eq_ok_iff

theorem lift_eq_error_iff {result : Except Failure α} {s t : σ} {e : Failure} :
    (liftM result : Action σ α) s = .error e t ↔ result = .error e ∧ s = t := by
  show ofExcept result s = _ ↔ _
  cases result <;> simp [ofExcept]

theorem within_eq_ok_iff {read : σ → τ} {write : σ → τ → σ} {action : Action τ α} {s t : σ}
    {a : α} : within read write action s = .ok a t ↔
      ∃ r, action (read s) = .ok a r ∧ t = write s r := by
  unfold within
  constructor
  · intro h
    cases hstep : action (read s) with
    | ok b r =>
      simp only [hstep, EStateM.Result.ok.injEq] at h
      exact ⟨r, by rw [h.1], h.2.symm⟩
    | error e r => simp [hstep] at h
  · rintro ⟨r, hstep, rfl⟩
    simp [hstep]

theorem within_eq_error_iff {read : σ → τ} {write : σ → τ → σ} {action : Action τ α} {s t : σ}
    {e : Failure} : within read write action s = .error e t ↔
      ∃ r, action (read s) = .error e r ∧ t = write s r := by
  unfold within
  constructor
  · intro h
    cases hstep : action (read s) with
    | ok a r => simp [hstep] at h
    | error e' r =>
      simp only [hstep, EStateM.Result.error.injEq] at h
      exact ⟨r, by rw [h.1], h.2.symm⟩
  · rintro ⟨r, hstep, rfl⟩
    simp [hstep]

theorem within_eq_error {read : σ → τ} {write : σ → τ → σ} {action : Action τ α} {s t : σ}
    {e : Failure} (h : within read write action s = .error e t) :
    ∃ r, action (read s) = .error e r := by
  obtain ⟨r, hstep, -⟩ := within_eq_error_iff.mp h
  exact ⟨r, hstep⟩

/-- What holds of the items done and the results so far, holds of all of them at the end. -/
theorem mapM_keeps {I : List α → List β → σ → Prop} {step : α → Action σ β} {items : List α}
    {done : List α} {sofar results : List β} {s t : σ}
    (hstep : ∀ done a later sofar s b t, done ++ a :: later = items → I done sofar s →
      step a s = .ok b t → I (done ++ [a]) (sofar ++ [b]) t)
    {later : List α} (hitems : done ++ later = items) (hs : I done sofar s)
    (h : later.mapM step s = .ok results t) : I items (sofar ++ results) t := by
  induction later generalizing done sofar results s with
  | nil =>
    rw [List.mapM_nil] at h
    cases h
    rw [List.append_nil] at hitems ⊢
    exact hitems ▸ hs
  | cons a later ih =>
    rw [List.mapM_cons] at h
    obtain ⟨b, r, hb, h⟩ := bind_eq_ok_iff.mp h
    obtain ⟨rest, r', hrest, h⟩ := bind_eq_ok_iff.mp h
    cases h
    have hnext := ih (by simpa using hitems) (hstep done a later sofar s b r hitems hs hb) hrest
    simpa using hnext

/-- What holds of the items done so far, holds of all of them at the end. -/
theorem forM_keeps {I : List α → σ → Prop} {step : α → Action σ PUnit} {items done : List α}
    {s t : σ}
    (hstep : ∀ done a later s t, done ++ a :: later = items → I done s → step a s = .ok () t →
      I (done ++ [a]) t)
    {later : List α} (hitems : done ++ later = items) (hs : I done s)
    (h : later.forM step s = .ok () t) : I items t := by
  induction later generalizing done s with
  | nil =>
    cases h
    rw [List.append_nil] at hitems
    exact hitems ▸ hs
  | cons a later ih =>
    obtain ⟨_, r, ha, h⟩ := bind_eq_ok_iff.mp h
    exact ih (by simpa using hitems) (hstep done a later s r hitems hs ha) h

/-- Whatever an action changes, whether it succeeds or fails, it does not break a property. -/
def Keeps (P : σ → Prop) (action : Action σ α) : Prop :=
  ∀ s, P s → P (action.after s)

section Keeps

variable {P : σ → Prop}

theorem Keeps.of_ok {action : Action σ α} {s t : σ} {a : α} (h : action.Keeps P) (hs : P s)
    (hok : action s = .ok a t) : P t := by
  have ht := h s hs
  rwa [after_of_ok hok] at ht

theorem Keeps.of_error {action : Action σ α} {s t : σ} {e : Failure} (h : action.Keeps P) (hs : P s)
    (herror : action s = .error e t) : P t := by
  have ht := h s hs
  rwa [after_of_error herror] at ht

theorem keeps_of_after_eq {action : Action σ α} (h : ∀ s, action.after s = s) :
    action.Keeps P := by
  intro s hs
  rw [h s]
  exact hs

theorem keeps_true (action : Action σ α) : action.Keeps fun _ => True :=
  fun _ _ => trivial

theorem keeps_pure (a : α) : Keeps P (pure a : Action σ α) :=
  keeps_of_after_eq fun _ => rfl

theorem keeps_throw (e : Failure) : Keeps P (throw e : Action σ α) :=
  keeps_of_after_eq fun _ => rfl

theorem keeps_ofExcept (result : Except Failure α) :
    Keeps P (ofExcept result : Action σ α) := by
  apply keeps_of_after_eq
  intro s
  cases result <;> rfl

theorem keeps_modify {change : σ → σ} (h : ∀ s, P s → P (change s)) :
    Keeps P (modify change : Action σ PUnit) :=
  h

theorem after_bind {action : Action σ α} {next : α → Action σ β} {s : σ} (h : P (action.after s))
    (hnext : ∀ a, (next a).Keeps P) : P ((action >>= next).after s) := by
  show P (after (EStateM.bind action next) s)
  unfold after EStateM.bind at *
  cases hstep : action s with
  | ok a t =>
    rw [hstep] at h
    exact hnext a t h
  | error e t =>
    rw [hstep] at h
    exact h

/-- What follows an action may rely on what the action comes to. -/
theorem after_bind_of {action : Action σ α} {next : α → Action σ β} {s : σ}
    (herror : ∀ e t, action s = .error e t → P t)
    (hok : ∀ a t, action s = .ok a t → P ((next a).after t)) : P ((action >>= next).after s) := by
  show P (after (EStateM.bind action next) s)
  unfold after EStateM.bind
  cases hstep : action s with
  | ok a t => exact hok a t hstep
  | error e t => exact herror e t hstep

theorem after_ofExcept_bind {result : Except Failure α} {next : α → Action σ β} {s : σ} (h : P s)
    (hnext : ∀ a, result = .ok a → P ((next a).after s)) :
    P ((ofExcept result >>= next).after s) := by
  cases hresult : result with
  | ok a => exact hnext a hresult
  | error e => exact h

theorem Keeps.bind {action : Action σ α} {next : α → Action σ β} (h : action.Keeps P)
    (hnext : ∀ a, (next a).Keeps P) : Keeps P (action >>= next) :=
  fun s hs => after_bind (h s hs) hnext

theorem Keeps.map {action : Action σ α} (f : α → β) (h : action.Keeps P) :
    Keeps P (f <$> action) := by
  rw [map_eq_pure_bind]
  exact h.bind fun a => keeps_pure (f a)

/-- What follows the reading of the state may rely on that state having the property. -/
theorem keeps_get_bind {next : σ → Action σ β} (h : ∀ s, P s → P ((next s).after s)) :
    Keeps P (get >>= next) :=
  h

theorem keeps_read {next : σ → Action σ β} (h : ∀ s, (next s).Keeps P) :
    Keeps P (get >>= next) :=
  keeps_get_bind fun s hs => h s s hs

theorem keeps_forM {items : List α} {body : α → Action σ PUnit}
    (h : ∀ a ∈ items, (body a).Keeps P) : Keeps P (items.forM body) := by
  induction items with
  | nil => exact keeps_pure _
  | cons a items ih =>
    exact (h a List.mem_cons_self).bind fun _ =>
      ih fun b hb => h b (List.mem_cons_of_mem _ hb)

theorem keeps_mapM {items : List α} {step : α → Action σ β}
    (h : ∀ a ∈ items, (step a).Keeps P) : Keeps P (items.mapM step) := by
  induction items with
  | nil => exact keeps_pure _
  | cons a items ih =>
    rw [List.mapM_cons]
    refine (h a List.mem_cons_self).bind fun _ => ?_
    exact (ih fun b hb => h b (List.mem_cons_of_mem _ hb)).bind fun _ => keeps_pure _

/-- An action on a part of the state keeps what writing that part back does not break. -/
theorem Keeps.within {Q : τ → Prop} {read : σ → τ} {write : σ → τ → σ} {action : Action τ α}
    (h : action.Keeps Q) (hread : ∀ s, P s → Q (read s))
    (hwrite : ∀ s r, P s → Q r → P (write s r)) : Keeps P (action.within read write) := by
  intro s hs
  have hr := h (read s) (hread s hs)
  unfold after at hr ⊢
  unfold Action.within
  cases hstep : action (read s) with
  | ok a r =>
    rw [hstep] at hr
    exact hwrite s r hs hr
  | error e r =>
    rw [hstep] at hr
    exact hwrite s r hs hr

end Keeps

/-- An action on a part of the state leaves the part that it leaves of that part. -/
theorem after_within {read : σ → τ} {write : σ → τ → σ} {action : Action τ α} {s : σ} :
    (action.within read write).after s = write s (action.after (read s)) := by
  unfold after Action.within
  cases action (read s) <;> rfl

/-- From a state with the property `I`, an action fails only in ways that have the property `P`. -/
def FailsOnly (I : σ → Prop) (P : Failure → Prop) (action : Action σ α) : Prop :=
  ∀ s e t, I s → action s = .error e t → P e

section FailsOnly

variable {I : σ → Prop} {P : Failure → Prop}

theorem failsOnly_pure (a : α) : FailsOnly I P (pure a : Action σ α) := by
  intro s e t _ h
  cases h

theorem failsOnly_throw {e : Failure} (h : P e) : FailsOnly I P (throw e : Action σ α) := by
  intro s e' t _ hthrow
  cases hthrow
  exact h

theorem failsOnly_modify {change : σ → σ} : FailsOnly I P (modify change : Action σ PUnit) := by
  intro s e t _ h
  cases h

theorem FailsOnly.mono {Q : Failure → Prop} {action : Action σ α} (h : action.FailsOnly I P)
    (himp : ∀ e, P e → Q e) : action.FailsOnly I Q :=
  fun s e t hs hfails => himp e (h s e t hs hfails)

theorem failsOnly_lift {result : Except Failure α} (h : ∀ e, result = .error e → P e) :
    FailsOnly I P (liftM result : Action σ α) := by
  intro s e t _ hlift
  cases result with
  | ok a => cases hlift
  | error e' =>
    cases hlift
    exact h e rfl

/-- What follows a step may rely on what the step comes to. -/
theorem FailsOnly.bind {action : Action σ α} {next : α → Action σ β} (h : action.FailsOnly I P)
    (hkeeps : action.Keeps I)
    (hnext : ∀ s a t, I s → action s = .ok a t → (next a).FailsOnly I P) :
    (action >>= next).FailsOnly I P := by
  intro s e t hs hbind
  obtain hstep | ⟨a, r, hstep, hrest⟩ := bind_eq_error_iff.mp hbind
  · exact h s e t hs hstep
  · exact hnext s a r hs hstep r e t (hkeeps.of_ok hs hstep) hrest

theorem failsOnly_get_bind {next : σ → Action σ β} (h : ∀ s, I s → (next s).FailsOnly I P) :
    (get >>= next).FailsOnly I P :=
  fun s e t hs hnext => h s hs s e t hs hnext

theorem FailsOnly.within {J : τ → Prop} {read : σ → τ} {write : σ → τ → σ} {action : Action τ α}
    (h : action.FailsOnly J P) (hread : ∀ s, I s → J (read s)) :
    (action.within read write).FailsOnly I P := by
  intro s e t hs hwithin
  obtain ⟨r, hstep⟩ := within_eq_error hwithin
  exact h _ _ _ (hread s hs) hstep

theorem failsOnly_mapM {step : α → Action σ β} {items : List α}
    (h : ∀ a ∈ items, (step a).FailsOnly I P) (hkeeps : ∀ a ∈ items, (step a).Keeps I) :
    (items.mapM step).FailsOnly I P := by
  induction items with
  | nil => exact failsOnly_pure _
  | cons a items ih =>
    rw [List.mapM_cons]
    obtain ⟨hfirst, hrest⟩ := List.forall_mem_cons.mp h
    obtain ⟨hkeepsFirst, hkeepsRest⟩ := List.forall_mem_cons.mp hkeeps
    refine hfirst.bind hkeepsFirst fun _ _ _ _ _ => ?_
    exact (ih hrest hkeepsRest).bind (keeps_mapM hkeepsRest) fun _ _ _ _ _ => failsOnly_pure _

end FailsOnly

end Dataflow.Action
