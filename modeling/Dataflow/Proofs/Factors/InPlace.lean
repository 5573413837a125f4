import Dataflow.Proofs.Action
import Dataflow.Proofs.Factors.Order
import Dataflow.Proofs.Monomial.Divisors

namespace Dataflow

/-- Change the state, unless the change fails. -/
def Action.attempt {σ : Type} (change : σ → Except Failure σ) : Action σ Unit := do
  let s ← get
  let changed ← change s
  modify fun _ => changed

section Attempt

open Dataflow.Action

variable {σ : Type} {change : σ → Except Failure σ} {s t : σ}

theorem Action.attempt_apply (change : σ → Except Failure σ) (s : σ) :
    attempt change s =
      match change s with
      | .ok t => .ok () t
      | .error e => .error e s := by
  rw [attempt, get_bind_apply, lift_bind_apply]
  cases change s <;> rfl

theorem Action.attempt_of_ok (h : change s = .ok t) : attempt change s = .ok () t := by
  rw [attempt_apply, h]

private theorem Action.attempt_of_error {e : Failure} (h : change s = .error e) :
    attempt change s = .error e s := by
  rw [attempt_apply, h]

end Attempt

namespace Factors

open Dataflow.Action Text

/-- Give divisors new powers one after another, each computed by `change` from the multiset at that
time. -/
def assignEach (change : Factors → String → Int) (keys : List String) : Action Factors Unit :=
  keys.forM fun key => attempt fun f => f.setPower key (change f key)

/-- The other operand of an operation in place. -/
inductive Operand where
  | itself
  | other (g : Factors)

/-- The other operand while the operation has come to `f`. -/
def Operand.now (f : Factors) : Operand → Factors
  | itself => f
  | other g => g

/-- Add the power in an entry of the other operand, as that is by now. -/
def addEntry (operand : Operand) (n : Nat) : Action Factors Unit := do
  let f ← get
  match (operand.now f).entries[n]? with
  | some (key, power) => attempt fun f => f.increment key power
  | none => pure ()

/-- Go through the entries of the other operand and add the powers in them. -/
def unionWith (operand : Operand) : Action Factors Unit := do
  let f ← get
  (List.range (operand.now f).entries.length).forM (addEntry operand)

/-- Lower the powers to those of the other operand. -/
def intersectWith (operand : Operand) : Action Factors Unit := do
  let f ← get
  assignEach (fun f key => min (f.power key) ((operand.now f).power key)) f.keys

/-- Fail unless a divisor occurs at least so often. -/
def require (key : String) (wanted : Nat) : Action Factors Unit := do
  let f ← get
  if f.power key < wanted then
    throw (Numeral.telling wanted (.missingPower key (f.power key) wanted))

/-- Fail at the first divisor that is lacking. -/
def requireAll (g : Factors) : Action Factors Unit :=
  g.entries.forM fun entry => require entry.1 entry.2

/-- Take the powers of another multiset off. -/
def takeOff (g : Factors) : Action Factors Unit :=
  assignEach (fun f key => f.power key - g.power key) g.keys

/-- Take another multiset away, after a look whether all of it is there. -/
def subtract (g : Factors) : Action Factors Unit := do
  requireAll g
  takeOff g

variable {f g : Factors}

private theorem setPower_natCast (f : Factors) (key : String) (p : Nat) :
    f.setPower key p = .ok (f.set key p) := by
  rw [setPower, if_neg (by omega), Int.toNat_natCast]

/-- A loop over different divisors ends with the powers that `change` computes from the multiset at
the start. -/
theorem assignEach_eq {change : Factors → String → Int} (target : String → Nat)
    {keys : List String} (hnodup : keys.Nodup)
    (h : ∀ key ∈ keys, ∀ g : Factors, g.power key = f.power key → change g key = target key) :
    assignEach change keys f = .ok () (f.settle target keys) := by
  induction keys generalizing f with
  | nil => rfl
  | cons key keys ih =>
    obtain ⟨hkey, hnodup⟩ := List.nodup_cons.mp hnodup
    have hstep : attempt (fun f => f.setPower key (change f key)) f =
        .ok () (f.set key (target key)) :=
      attempt_of_ok (by rw [h key List.mem_cons_self f rfl, setPower_natCast])
    -- The step left the powers of the divisors still to come alone.
    have hrest : ∀ k ∈ keys, ∀ g : Factors, g.power k = (f.set key (target key)).power k →
        change g k = target k := by
      intro k hk g hg
      rw [power_set, if_neg (ne_of_mem_of_not_mem hk hkey)] at hg
      exact h k (List.mem_cons_of_mem _ hk) g hg
    exact (bind_of_ok hstep).trans (ih hnodup hrest)

private theorem power_now {operand : Operand} {key : String} (h : g.power key = f.power key) :
    (operand.now g).power key = (operand.now f).power key := by
  cases operand with
  | itself => exact h
  | other _ => rfl

section Union

/-- What a divisor has in the end when the powers of the other operand are added. -/
def sum (operand : Operand) (f : Factors) (key : String) : Nat :=
  f.power key + (operand.now f).power key

variable {operand : Operand}

/-- No divisor comes or goes while a multiset is united with itself. -/
theorem keys_now_settle {keys : List String} (hnodup : keys.Nodup)
    (h : ∀ key ∈ keys, key ∈ (operand.now f).keys) :
    (operand.now (f.settle (sum operand f) keys)).keys = (operand.now f).keys := by
  cases operand with
  | other _ => rfl
  | itself =>
    have hstay : (f.keys.filter fun key => 0 < (f.settle (sum .itself f) keys).power key) =
        f.keys := by
      refine List.filter_eq_self.mpr fun key hkey => decide_eq_true ?_
      have hpos := power_pos_iff.mpr hkey
      rw [power_settle]
      split
      · exact Nat.add_pos_left hpos _
      · exact hpos
    have hnew : (keys.filter fun key =>
        f.power key = 0 ∧ 0 < (f.settle (sum .itself f) keys).power key) = [] := by
      refine List.filter_eq_nil_iff.mpr fun key hkey => ?_
      have hpos : 0 < f.power key := power_pos_iff.mpr (h key hkey)
      simp [Nat.pos_iff_ne_zero.mp hpos]
    have hkeys : (f.settle (sum .itself f) keys).keys = _ :=
      continues_settle hnodup f (sum .itself f)
    rwa [hstay, hnew, List.append_nil] at hkeys

/-- A step of the union finds the entry that stood there at the start. -/
theorem addEntry_eq {before after : List String} {key : String}
    (hkeys : (operand.now f).keys = before ++ key :: after) :
    addEntry operand before.length (f.settle (sum operand f) before) =
      .ok () (f.settle (sum operand f) (before ++ [key])) := by
  obtain ⟨hbefore, -, hdisjoint⟩ := List.nodup_append.mp (hkeys ▸ nodup (operand.now f))
  have hpower : (f.settle (sum operand f) before).power key = f.power key := by
    rw [power_settle, if_neg fun hmem => hdisjoint key hmem key List.mem_cons_self rfl]
  have hnow : (operand.now (f.settle (sum operand f) before)).keys = before ++ key :: after :=
    (keys_now_settle hbefore fun k hk => hkeys ▸ List.mem_append_left _ hk).trans hkeys
  have hentry : (operand.now (f.settle (sum operand f) before)).entries[before.length]? =
      some (key, (operand.now f).power key) := by
    rw [entries_eq, List.getElem?_map, hnow, List.getElem?_append_right (Nat.le_refl _),
      Nat.sub_self, List.getElem?_cons_zero, Option.map_some, power_now hpower]
  have hadd : attempt (fun f' => f'.increment key ((operand.now f).power key))
      (f.settle (sum operand f) before) = .ok () (f.settle (sum operand f) (before ++ [key])) := by
    refine attempt_of_ok ?_
    rw [increment, hpower, ← Int.natCast_add, setPower_natCast, settle_concat, sum]
  rw [addEntry, get_bind_apply, hentry]
  exact hadd

private theorem addEntries_eq (before after : List String)
    (hkeys : (operand.now f).keys = before ++ after) :
    (List.range' before.length after.length).forM (addEntry operand)
      (f.settle (sum operand f) before) =
        .ok () (f.settle (sum operand f) (operand.now f).keys) := by
  induction after generalizing before with
  | nil =>
    rw [hkeys, List.append_nil]
    rfl
  | cons key after ih =>
    have hrest := ih (before ++ [key]) (by simpa using hkeys)
    rw [List.length_append] at hrest
    exact (bind_of_ok (addEntry_eq hkeys)).trans hrest

end Union

theorem unionWith_eq (operand : Operand) :
    unionWith operand = attempt fun f => .ok (f.union (operand.now f)) := by
  funext f
  have hlength : (operand.now f).entries.length = (operand.now f).keys.length :=
    (List.length_map Prod.fst).symm
  have hloop := addEntries_eq [] (operand.now f).keys rfl
  rw [unionWith, get_bind_apply, hlength, List.range_eq_range']
  refine hloop.trans (.trans (congrArg _ ?_) (attempt_of_ok rfl).symm)
  refine settle_eq (nodup _) (continues_union f _) (power_union f _) fun key hkey => ?_
  rw [sum, power_eq_zero_of_notMem hkey, Nat.add_zero]

theorem intersectWith_eq (operand : Operand) :
    intersectWith operand = attempt fun f => .ok (f.inter (operand.now f)) := by
  funext f
  have hloop : intersectWith operand f = .ok () (f.inter (operand.now f)) := by
    rw [intersectWith, get_bind_apply, assignEach_eq
      (fun key => min (f.power key) ((operand.now f).power key)) (nodup _)]
    · refine congrArg _ (settle_eq (nodup _) (continues_inter _ f _) (power_inter f _) ?_)
      intro key hkey
      rw [power_eq_zero_of_notMem hkey, Nat.zero_min]
    · intro key _ g hg
      rw [hg, power_now hg]
      omega
  exact hloop.trans (attempt_of_ok rfl).symm

/-- Nothing that is there often enough is taken off in vain. -/
theorem takeOff_eq (h : ∀ key, g.power key ≤ f.power key) :
    takeOff g f = .ok () (f.diff g) := by
  rw [takeOff, assignEach_eq (fun key => f.power key - g.power key) (nodup _)]
  · refine congrArg _ (settle_eq (nodup _) (continues_diff _ f _) (power_diff f _) ?_)
    intro key hkey
    rw [power_eq_zero_of_notMem hkey, Nat.sub_zero]
  · intro key _ f' hf'
    have hle := h key
    rw [hf']
    omega

theorem requireAll_eq (g f : Factors) : requireAll g f =
    match f.lacking? g with
    | some (key, wanted) =>
      .error (Numeral.telling wanted (.missingPower key (f.power key) wanted)) f
    | none => .ok () f := by
  rw [requireAll, lacking?]
  generalize g.entries = entries
  induction entries with
  | nil => rfl
  | cons entry entries ih =>
    rw [List.find?_cons]
    by_cases h : f.power entry.1 < entry.2
    · have hfails : require entry.1 entry.2 f =
          .error (Numeral.telling entry.2 (.missingPower entry.1 (f.power entry.1) entry.2)) f := by
        rw [require, get_bind_apply, if_pos h]
        rfl
      rw [Nat.blt_eq.mpr h]
      exact bind_of_error hfails
    · have hpasses : require entry.1 entry.2 f = .ok () f := by
        rw [require, get_bind_apply, if_neg h]
        rfl
      have hblt : Nat.blt (f.power entry.1) entry.2 = false :=
        Bool.eq_false_iff.mpr fun hlt => h (Nat.blt_eq.mp hlt)
      rw [hblt]
      exact (bind_of_ok hpasses).trans ih

/-- A subtraction in place is done as a whole or not at all. -/
theorem subtract_eq (g : Factors) : subtract g = attempt (·.diff? g) := by
  funext f
  cases hlacking : f.lacking? g with
  | some missing =>
    obtain ⟨key, wanted⟩ := missing
    have hstops : requireAll g f =
        .error (Numeral.telling wanted (.missingPower key (f.power key) wanted)) f := by
      rw [requireAll_eq, hlacking]
    have hfails : attempt (·.diff? g) f =
        .error (Numeral.telling wanted (.missingPower key (f.power key) wanted)) f :=
      attempt_of_error (by rw [diff?, hlacking])
    exact (bind_of_error hstops).trans hfails.symm
  | none =>
    have hpasses : requireAll g f = .ok () f := by rw [requireAll_eq, hlacking]
    have hdone : attempt (·.diff? g) f = .ok () (f.diff g) :=
      attempt_of_ok (by rw [diff?, hlacking])
    have htaken := takeOff_eq (lacking?_eq_none_iff.mp hlacking)
    exact ((bind_of_ok hpasses).trans htaken).trans hdone.symm

end Factors

end Dataflow
