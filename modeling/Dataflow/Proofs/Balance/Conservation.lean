import Dataflow.Proofs.Balance.Tree
import Dataflow.Proofs.Graph.Rates
import Dataflow.Proofs.Ratio

namespace Dataflow.Balance

/-- The balance equation of a channel: what its source puts in is what its target takes out. -/
def Balances (g : Graph) (count : Actor → Monomial) (c : Channel) : Prop :=
  ∃ produced consumed, g.readRate c.source.port = .ok produced ∧
    g.readRate c.target.port = .ok consumed ∧
    (count c.source.actor * produced == count c.target.actor * consumed) = true

/-- Whether a channel is balanced, by reading the rates at its ends. -/
def isBalanced (g : Graph) (count : Actor → Monomial) (c : Channel) : Bool :=
  match g.readRate c.source.port, g.readRate c.target.port with
  | .ok produced, .ok consumed =>
    count c.source.actor * produced == count c.target.actor * consumed
  | _, _ => false

private theorem isBalanced_iff {g : Graph} {count : Actor → Monomial} {c : Channel} :
    isBalanced g count c = true ↔ Balances g count c := by
  unfold isBalanced Balances
  cases g.readRate c.source.port <;> cases g.readRate c.target.port <;> simp

instance (g : Graph) (count : Actor → Monomial) (c : Channel) : Decidable (Balances g count c) :=
  decidable_of_iff _ isBalanced_iff

/-- The balance equation of a channel for firing counts with the exponents `φ`. -/
def Conserves (g : Graph) (φ : Actor → String → Int) (c : Channel) : Prop :=
  ∃ produced consumed, g.readRate c.source.port = .ok produced ∧
    g.readRate c.target.port = .ok consumed ∧
    ∀ key, φ c.source.actor key + produced.power key = φ c.target.actor key + consumed.power key

/-- The product over a walk of the rates of the ports entered over the rates of the ports left. -/
def gain (g : Graph) : List Link → Except Failure Ratio
  | [] => .ok .one
  | link :: walk => do
    let left ← g.readRate link.near.port
    let entered ← g.readRate link.far.port
    return .of entered left * (← gain g walk)

variable {g : Graph} {φ ψ : Actor → String → Int}

theorem balances_iff {count : Actor → Monomial} {c : Channel} :
    Balances g count c ↔ Conserves g (fun a key => (count a).power key) c := by
  unfold Balances Conserves
  refine exists_congr fun produced => exists_congr fun consumed => ?_
  rw [Monomial.beq_iff]
  refine and_congr_right fun _ => and_congr_right fun _ => forall_congr' fun key => ?_
  rw [Monomial.power_mul, Monomial.power_mul]
  dsimp only
  omega

theorem Balances.congr {count count' : Actor → Monomial} {c : Channel} (h : Balances g count c)
    (hsource : (count c.source.actor == count' c.source.actor) = true)
    (htarget : (count c.target.actor == count' c.target.actor) = true) : Balances g count' c := by
  obtain ⟨produced, consumed, hproduced, hconsumed, heq⟩ := balances_iff.mp h
  refine balances_iff.mpr ⟨produced, consumed, hproduced, hconsumed, fun key => ?_⟩
  have hsource := Monomial.beq_iff.mp hsource key
  have htarget := Monomial.beq_iff.mp htarget key
  have heq := heq key
  dsimp only at heq ⊢
  omega

theorem Conserves.along {link : Link} (h : Conserves g φ link.channel) :
    ∃ left entered, g.readRate link.near.port = .ok left ∧
      g.readRate link.far.port = .ok entered ∧
      ∀ key, φ link.near.actor key + left.power key = φ link.far.actor key + entered.power key := by
  obtain ⟨produced, consumed, hproduced, hconsumed, heq⟩ := h
  obtain ⟨c, direction⟩ := link
  cases direction with
  | output => exact ⟨produced, consumed, hproduced, hconsumed, heq⟩
  | input => exact ⟨consumed, produced, hconsumed, hproduced, fun key => (heq key).symm⟩

theorem Conserves.of_along {link : Link} {left entered : Monomial}
    (hleft : g.readRate link.near.port = .ok left)
    (hentered : g.readRate link.far.port = .ok entered)
    (heq : ∀ key,
      φ link.near.actor key + left.power key = φ link.far.actor key + entered.power key) :
    Conserves g φ link.channel := by
  obtain ⟨c, direction⟩ := link
  cases direction with
  | output => exact ⟨left, entered, hleft, hentered, heq⟩
  | input => exact ⟨entered, left, hentered, hleft, fun key => (heq key).symm⟩

section Gain

variable {walk further : List Link} {link : Link} {a b : Actor}

theorem gain_cons {left entered : Monomial} {r : Ratio}
    (hleft : g.readRate link.near.port = .ok left)
    (hentered : g.readRate link.far.port = .ok entered) (hr : gain g walk = .ok r) :
    gain g (link :: walk) = .ok (.of entered left * r) := by
  simp [gain, hleft, hentered, hr, bind, Except.bind, pure, Except.pure]

theorem gain_append {r s : Ratio} (hr : gain g walk = .ok r) (hs : gain g further = .ok s) :
    ∃ t, gain g (walk ++ further) = .ok t ∧
      ∀ key, t.exponent key = r.exponent key + s.exponent key := by
  induction walk generalizing r with
  | nil =>
    cases hr
    exact ⟨s, hs, by simp⟩
  | cons link walk ih =>
    obtain ⟨left, hleft, hr⟩ := Except.bind_eq_ok_iff.mp hr
    obtain ⟨entered, hentered, hr⟩ := Except.bind_eq_ok_iff.mp hr
    obtain ⟨rest, hrest, hr⟩ := Except.bind_eq_ok_iff.mp hr
    cases hr
    obtain ⟨t, ht, hsum⟩ := ih hrest
    refine ⟨_, gain_cons hleft hentered ht, fun key => ?_⟩
    rw [Ratio.exponent_mul, Ratio.exponent_mul, hsum]
    omega

/-- Along balanced channels the gain of a walk depends only on its ends. -/
theorem gain_of_conserves (hwalk : Leads a walk b)
    (h : ∀ link ∈ walk, Conserves g φ link.channel) :
    ∃ r, gain g walk = .ok r ∧ ∀ key, r.exponent key = φ a key - φ b key := by
  induction walk generalizing a with
  | nil =>
    obtain rfl : a = b := hwalk
    exact ⟨.one, rfl, by simp⟩
  | cons link walk ih =>
    obtain ⟨hnear, hwalk⟩ := hwalk
    obtain ⟨left, entered, hleft, hentered, heq⟩ := (h link List.mem_cons_self).along
    obtain ⟨r, hr, hexponent⟩ := ih hwalk fun l hl => h l (List.mem_cons_of_mem _ hl)
    refine ⟨_, gain_cons hleft hentered hr, fun key => ?_⟩
    have hstep := heq key
    rw [hnear] at hstep
    rw [Ratio.exponent_mul, Ratio.exponent_of, hexponent]
    omega

/-- A walk back to where it began gains nothing if its channels can be balanced. -/
theorem not_balances_of_gain {r : Ratio} (hwalk : Leads a walk a) (hr : gain g walk = .ok r)
    (hone : r.isOne = false) :
    ¬ ∃ count : Actor → Monomial, ∀ link ∈ walk, Balances g count link.channel := by
  rintro ⟨count, hcount⟩
  obtain ⟨s, hs, hexponent⟩ :=
    gain_of_conserves hwalk fun link hlink => balances_iff.mp (hcount link hlink)
  obtain rfl : r = s := by simpa [hr] using hs
  have hr : r.isOne = true := Ratio.isOne_iff.mpr fun key => by
    rw [hexponent]
    omega
  rw [hr] at hone
  cases hone

end Gain

/-- Two solutions along a tree differ everywhere as they do at the start. -/
theorem Tree.sub_eq {start : Actor} {tree : List Link} (h : Tree g start tree)
    (hφ : ∀ link ∈ tree, Conserves g φ link.channel)
    (hψ : ∀ link ∈ tree, Conserves g ψ link.channel) (key : String) :
    ∀ a ∈ reached start tree, φ a key - ψ a key = φ start key - ψ start key := by
  induction h with
  | root _ =>
    intro a ha
    obtain rfl : a = start := by simpa [reached] using ha
    rfl
  | @grow tree link h _ hnear _ ih =>
    have ih := ih (fun l hl => hφ l (List.mem_append_left _ hl))
      fun l hl => hψ l (List.mem_append_left _ hl)
    intro a ha
    rw [reached_concat] at ha
    obtain ha | ha := List.mem_append.mp ha
    · exact ih a ha
    · rw [List.mem_singleton.mp ha]
      have hlink : link ∈ tree ++ [link] := List.mem_append_right _ (List.mem_singleton_self _)
      obtain ⟨left, entered, hleft, hentered, heqφ⟩ := (hφ link hlink).along
      obtain ⟨left', entered', hleft', hentered', heqψ⟩ := (hψ link hlink).along
      obtain rfl : left = left' := by simpa [hleft] using hleft'
      obtain rfl : entered = entered' := by simpa [hentered] using hentered'
      -- Both solutions change over the link by the same rates.
      have hnear := ih link.near.actor hnear
      have hstepφ := heqφ key
      have hstepψ := heqψ key
      omega

end Dataflow.Balance
