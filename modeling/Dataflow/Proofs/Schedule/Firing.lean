import Dataflow.Proofs.Graph.Rates
import Dataflow.Proofs.Monomial.Value

namespace Dataflow

/-- How many tokens lie on each channel. -/
abbrev Marking := Channel → Nat

namespace Graph

/-- How many tokens pass a port when an actor fires, once the parameters have the values `v`. -/
def tokenRate (g : Graph) (v : String → Nat) (p : Port) : Except Failure Nat := do
  return (← g.readRate p).value v

/-- An actor fires. -/
def Fires (g : Graph) (v : String → Nat) (a : Actor) (before after : Marking) : Prop :=
  ∀ c ∈ g.channels, ∃ produced consumed,
    g.tokenRate v c.source.port = .ok produced ∧ g.tokenRate v c.target.port = .ok consumed ∧
    (c.target.actor = a → consumed ≤ before c) ∧
    after c + (if c.target.actor = a then consumed else 0) =
      before c + (if c.source.actor = a then produced else 0)

/-- Actors fire one after the other. -/
inductive Runs (g : Graph) (v : String → Nat) : Marking → List Actor → Marking → Prop
  | done (tokens : Marking) : Runs g v tokens [] tokens
  | fire {a : Actor} {firings : List Actor} {before between after : Marking}
    (h : g.Fires v a before between) (hrest : Runs g v between firings after) :
    Runs g v before (a :: firings) after

/-- The numbers of tokens that are put on each channel and taken off it at one firing. -/
structure Traffic (g : Graph) (v : String → Nat) where
  produced : Channel → Nat
  consumed : Channel → Nat
  produced_eq : ∀ c ∈ g.channels, g.tokenRate v c.source.port = .ok (produced c)
  consumed_eq : ∀ c ∈ g.channels, g.tokenRate v c.target.port = .ok (consumed c)

variable {g : Graph} {v : String → Nat} {a : Actor} {tokens between after : Marking}
  {firings further : List Actor}

theorem Runs.append (h : g.Runs v tokens firings between)
    (hfurther : g.Runs v between further after) :
    g.Runs v tokens (firings ++ further) after := by
  induction h with
  | done tokens => exact hfurther
  | fire hfires _ ih => exact .fire hfires (ih hfurther)

namespace Traffic

variable (traffic : Traffic g v)

/-- An actor that does not feed itself may fire as often as its inputs last. -/
theorem exists_runs_replicate (hself : ∀ c ∈ g.channels, c.source.actor = a → c.target.actor ≠ a)
    (times : Nat) (tokens : Marking)
    (hlasts : ∀ c ∈ g.channels, c.target.actor = a → times * traffic.consumed c ≤ tokens c) :
    ∃ after, g.Runs v tokens (List.replicate times a) after ∧ ∀ c ∈ g.channels,
      after c + (if c.target.actor = a then times * traffic.consumed c else 0) =
        tokens c + (if c.source.actor = a then times * traffic.produced c else 0) := by
  induction times generalizing tokens with
  | zero => exact ⟨tokens, .done tokens, by simp⟩
  | succ times ih =>
    have hsplit (rate : Nat) : (times + 1) * rate = rate + times * rate := by
      rw [Nat.succ_mul, Nat.add_comm]
    let next : Marking := fun c =>
      tokens c - (if c.target.actor = a then traffic.consumed c else 0) +
        (if c.source.actor = a then traffic.produced c else 0)
    have hnext : ∀ c ∈ g.channels,
        (c.target.actor = a → traffic.consumed c ≤ tokens c) ∧
        next c + (if c.target.actor = a then traffic.consumed c else 0) =
          tokens c + (if c.source.actor = a then traffic.produced c else 0) := by
      intro c hc
      have hle : c.target.actor = a → traffic.consumed c ≤ tokens c := by
        intro htarget
        have hle := hlasts c hc htarget
        rw [hsplit] at hle
        omega
      refine ⟨hle, ?_⟩
      by_cases htarget : c.target.actor = a
      · have hle := hle htarget
        simp only [next, htarget, if_true]
        omega
      · simp [next, htarget]
    obtain ⟨after, hruns, hafter⟩ := ih next <| by
      intro c hc htarget
      have hsource : c.source.actor ≠ a := fun hsource => hself c hc hsource htarget
      have hle := hlasts c hc htarget
      have hstep := (hnext c hc).2
      simp only [htarget, hsource, if_true, if_false, hsplit] at hle hstep
      omega
    refine ⟨after, .fire (fun c hc => ?_) hruns, fun c hc => ?_⟩
    · exact ⟨_, _, traffic.produced_eq c hc, traffic.consumed_eq c hc, hnext c hc⟩
    · have hstep := (hnext c hc).2
      have hrest := hafter c hc
      simp only [hsplit]
      split <;> split <;> simp_all <;> omega

end Traffic

end Graph

end Dataflow
