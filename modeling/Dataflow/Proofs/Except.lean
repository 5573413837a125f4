namespace Dataflow.Except

variable {ε α β : Type}

theorem isOk_iff {result : Except ε α} : result.isOk = true ↔ ∃ a, result = .ok a := by
  cases result <;> simp [Except.isOk, Except.toBool]

theorem bind_eq_ok_iff {result : Except ε α} {next : α → Except ε β} {b : β} :
    (result >>= next) = .ok b ↔ ∃ a, result = .ok a ∧ next a = .ok b := by
  cases result <;> simp [bind, Except.bind]

theorem bind_eq_error_iff {result : Except ε α} {next : α → Except ε β} {e : ε} :
    (result >>= next) = .error e ↔ result = .error e ∨ ∃ a, result = .ok a ∧ next a = .error e := by
  cases result <;> simp [bind, Except.bind]

theorem map_eq_ok_iff {result : Except ε α} {f : α → β} {b : β} :
    f <$> result = .ok b ↔ ∃ a, result = .ok a ∧ f a = b := by
  cases result <;> simp [Functor.map, Except.map]

theorem map_eq_error_iff {result : Except ε α} {f : α → β} {e : ε} :
    f <$> result = .error e ↔ result = .error e := by
  cases result <;> simp [Functor.map, Except.map]

/-- A property that every step keeps holds at the end. -/
theorem foldlM_keeps {P : β → Prop} {step : β → α → Except ε β} {items : List α} {start final : β}
    (hstep : ∀ a ∈ items, ∀ b b', P b → step b a = .ok b' → P b') (hstart : P start)
    (h : items.foldlM step start = .ok final) : P final := by
  induction items generalizing start with
  | nil =>
    cases h
    exact hstart
  | cons a items ih =>
    rw [List.foldlM_cons] at h
    obtain ⟨b, hb, h⟩ := bind_eq_ok_iff.mp h
    exact ih (fun a ha => hstep a (List.mem_cons_of_mem _ ha))
      (hstep a List.mem_cons_self start b hstart hb) h

/-- A fold fails as one of its steps does. -/
theorem exists_of_foldlM_eq_error {step : β → α → Except ε β} {items : List α} {start : β} {e : ε}
    (h : items.foldlM step start = .error e) : ∃ a ∈ items, ∃ b, step b a = .error e := by
  induction items generalizing start with
  | nil => cases h
  | cons a items ih =>
    rw [List.foldlM_cons] at h
    obtain ha | ⟨b, -, h⟩ := bind_eq_error_iff.mp h
    · exact ⟨a, List.mem_cons_self, start, ha⟩
    · obtain ⟨c, hc, d, hstep⟩ := ih h
      exact ⟨c, List.mem_cons_of_mem _ hc, d, hstep⟩

/-- A fold that succeeds took a step for each item. -/
theorem exists_of_mem_foldlM {step : β → α → Except ε β} {items : List α} {start final : β}
    (h : items.foldlM step start = .ok final) {a : α} (ha : a ∈ items) :
    ∃ b b', step b a = .ok b' := by
  induction items generalizing start with
  | nil => cases ha
  | cons c items ih =>
    rw [List.foldlM_cons] at h
    obtain ⟨b, hb, h⟩ := bind_eq_ok_iff.mp h
    obtain rfl | ha := List.mem_cons.mp ha
    · exact ⟨start, b, hb⟩
    · exact ih h ha

/-- When all results are there, so is the one for each item. -/
theorem exists_mem_of_mapM {step : α → Except ε β} {items : List α} {results : List β}
    (h : items.mapM step = .ok results) {a : α} (ha : a ∈ items) :
    ∃ b ∈ results, step a = .ok b := by
  induction items generalizing results with
  | nil => simp at ha
  | cons c items ih =>
    rw [List.mapM_cons] at h
    obtain ⟨b, hb, h⟩ := bind_eq_ok_iff.mp h
    obtain ⟨rest, hrest, h⟩ := bind_eq_ok_iff.mp h
    cases h
    obtain rfl | ha := List.mem_cons.mp ha
    · exact ⟨b, List.mem_cons_self, hb⟩
    · obtain ⟨d, hd, heq⟩ := ih hrest ha
      exact ⟨d, List.mem_cons_of_mem _ hd, heq⟩

/-- Every result comes from an item. -/
theorem exists_of_mem_mapM {step : α → Except ε β} {items : List α} {results : List β}
    (h : items.mapM step = .ok results) {b : β} (hb : b ∈ results) :
    ∃ a ∈ items, step a = .ok b := by
  induction items generalizing results with
  | nil =>
    cases h
    cases hb
  | cons c items ih =>
    rw [List.mapM_cons] at h
    obtain ⟨d, hd, h⟩ := bind_eq_ok_iff.mp h
    obtain ⟨rest, hrest, h⟩ := bind_eq_ok_iff.mp h
    cases h
    obtain rfl | hb := List.mem_cons.mp hb
    · exact ⟨c, List.mem_cons_self, hd⟩
    · obtain ⟨a, ha, heq⟩ := ih hrest hb
      exact ⟨a, List.mem_cons_of_mem _ ha, heq⟩

theorem mapM_eq_ok {step : α → Except ε β} {f : α → β} {items : List α}
    (h : ∀ a ∈ items, step a = .ok (f a)) : items.mapM step = .ok (items.map f) := by
  induction items with
  | nil => rfl
  | cons a items ih =>
    obtain ⟨ha, hrest⟩ := List.forall_mem_cons.mp h
    rw [List.mapM_cons, ha, ih hrest]
    rfl

theorem exists_mapM {step : α → Except ε β} {items : List α}
    (h : ∀ a ∈ items, ∃ b, step a = .ok b) : ∃ results, items.mapM step = .ok results := by
  induction items with
  | nil => exact ⟨[], rfl⟩
  | cons a items ih =>
    obtain ⟨⟨b, hb⟩, hrest⟩ := List.forall_mem_cons.mp h
    obtain ⟨results, hresults⟩ := ih hrest
    rw [List.mapM_cons]
    exact ⟨b :: results, bind_eq_ok_iff.mpr ⟨b, hb, bind_eq_ok_iff.mpr ⟨results, hresults, rfl⟩⟩⟩

/-- Results that are not all there fail as the one for some item does. -/
theorem exists_of_mapM_eq_error {step : α → Except ε β} {items : List α} {e : ε}
    (h : items.mapM step = .error e) : ∃ a ∈ items, step a = .error e := by
  induction items with
  | nil => cases h
  | cons a items ih =>
    rw [List.mapM_cons] at h
    obtain ha | ⟨b, -, h⟩ := bind_eq_error_iff.mp h
    · exact ⟨a, List.mem_cons_self, ha⟩
    · obtain hrest | ⟨results, -, h⟩ := bind_eq_error_iff.mp h
      · obtain ⟨c, hc, hstep⟩ := ih hrest
        exact ⟨c, List.mem_cons_of_mem _ hc, hstep⟩
      · cases h

/-- Steps that fail in one way only succeed together. -/
theorem mapM_ite {P : α → Prop} [DecidablePred P] {f : α → β} {e : ε} (items : List α) :
    items.mapM (fun a => if P a then .ok (f a) else .error e : α → Except ε β) =
      if ∀ a ∈ items, P a then .ok (items.map f) else .error e := by
  induction items with
  | nil => simp [pure, Except.pure]
  | cons a items ih =>
    rw [List.mapM_cons, ih]
    by_cases ha : P a
    · by_cases hitems : ∀ a ∈ items, P a
      · rw [if_pos ha, if_pos hitems, if_pos (List.forall_mem_cons.mpr ⟨ha, hitems⟩)]
        rfl
      · rw [if_pos ha, if_neg hitems, if_neg fun h => hitems (List.forall_mem_cons.mp h).2]
        rfl
    · rw [if_neg ha, if_neg fun h => ha (List.forall_mem_cons.mp h).1]
      rfl

end Dataflow.Except
