import Dataflow.Proofs.Action

namespace Dataflow

/-- A recursion over a state `σ` that fails with an `ε`. -/
abbrev Recursion (σ ε α : Type) := ExceptT ε (StateT σ Option) α

namespace Recursion

variable {σ τ ε α β : Type} {step : Recursion σ ε α} {next next' : α → Recursion σ ε β} {s t : σ}

theorem bind_apply (step : Recursion σ ε α) (next : α → Recursion σ ε β) (s : σ) :
    (step >>= next) s =
      match step s with
      | some (.ok a, t) => next a t
      | some (.error e, t) => some (.error e, t)
      | none => none := by
  show (step s).bind _ = _
  cases step s with
  | none => rfl
  | some outcome =>
    obtain ⟨a | e, t⟩ := outcome <;> rfl

theorem bind_of_ok {a : α} (h : step s = some (.ok a, t)) : (step >>= next) s = next a t := by
  rw [bind_apply, h]

theorem bind_of_error {e : ε} (h : step s = some (.error e, t)) :
    (step >>= next) s = some (.error e, t) := by
  rw [bind_apply, h]

theorem bind_apply_congr {step' : Recursion σ ε α} (h : step s = step' t) :
    (step >>= next) s = (step' >>= next) t := by
  rw [bind_apply, bind_apply, h]

/-- Recursions that go on alike from wherever a step leads are alike. -/
theorem bind_congr (h : ∀ a t, step s = some (.ok a, t) → next a t = next' a t) :
    (step >>= next) s = (step >>= next') s := by
  rw [bind_apply, bind_apply]
  split
  · exact h _ _ ‹_›
  · rfl
  · rfl

theorem get_bind_apply (next : σ → Recursion σ ε β) (s : σ) : (get >>= next) s = next s s := rfl

theorem forM_cons (a : α) (items : List α) (body : α → Recursion σ ε Unit) :
    (a :: items).forM body = body a >>= fun _ => items.forM body := rfl

theorem forM_congr {items : List α} {body body' : α → Recursion σ ε Unit}
    (h : ∀ a ∈ items, body a = body' a) : items.forM body = items.forM body' := by
  induction items with
  | nil => rfl
  | cons a items ih =>
    obtain ⟨ha, hitems⟩ := List.forall_mem_cons.mp h
    rw [forM_cons, forM_cons, ha, ih hitems]

end Recursion

end Dataflow
