import Dataflow.Proofs.Factors.InPlace
import Mathlib.Logic.Function.Basic

namespace Dataflow.Factors

open Dataflow.Action Text

/-- The multisets there are. The place of a multiset is its handle. -/
abbrev Store := List Factors

/-- An operation on multisets. What is taken away is another multiset. -/
inductive Operation where
  | new (pairs : List (String × Int))
  | copy (i : Nat)
  | setPower (i : Nat) (key : String) (power : Int)
  | increment (i : Nat) (key : String) (delta : Int)
  | union (i j : Nat)
  | inter (i j : Nat)
  | diff (i j : Nat) (hne : i ≠ j)

namespace Store

/-- The multiset with a handle. -/
def find (store : Store) (i : Nat) : Except Failure Factors :=
  match store[i]? with
  | some f => .ok f
  | none => .error (.unknownHandle i)

/-- The other operand of an operation on the multiset `i`. -/
def operand (store : Store) (i j : Nat) : Except Failure Operand :=
  if i = j then .ok .itself else .other <$> store.find j

/-- Carry out an operation in place. -/
def inPlace (i : Nat) (action : Action Factors Unit) : Action Store Unit := do
  let store ← get
  let f ← store.find i
  action.within (fun _ => f) (fun store f => store.set i f)

/-- Carry out an operation in place with another operand. -/
def inPlaceWith (i j : Nat) (action : Operand → Action Factors Unit) : Action Store Unit := do
  let store ← get
  let operand ← store.operand i j
  inPlace i (action operand)

/-- Change one multiset. -/
def edit (store : Store) (i : Nat) (change : Factors → Except Failure Factors) :
    Except Failure Store := do
  let f ← store.find i
  store.set i <$> change f

end Store

namespace Operation

/-- Carry out an operation, step by step. -/
def perform : Operation → Action Store Unit
  | new pairs => do
    let f ← ofPairs pairs
    modify (· ++ [f])
  | copy i => do
    let store ← get
    let f ← store.find i
    modify (· ++ [f])
  | setPower i key power => Store.inPlace i (attempt (·.setPower key power))
  | increment i key delta => Store.inPlace i (attempt (·.increment key delta))
  | union i j => Store.inPlaceWith i j unionWith
  | inter i j => Store.inPlaceWith i j intersectWith
  | diff i j _ => do
    let store ← get
    let g ← store.find j
    Store.inPlace i (subtract g)

/-- What an operation comes to. -/
def outcome : Operation → Store → Except Failure Store
  | new pairs, store => (fun f => store ++ [f]) <$> ofPairs pairs
  | copy i, store => (fun f => store ++ [f]) <$> store.find i
  | setPower i key power, store => store.edit i (·.setPower key power)
  | increment i key delta, store => store.edit i (·.increment key delta)
  | union i j, store => do
    let g ← store.find j
    store.edit i fun f => .ok (f.union g)
  | inter i j, store => do
    let g ← store.find j
    store.edit i fun f => .ok (f.inter g)
  | diff i j _, store => do
    let g ← store.find j
    store.edit i (·.diff? g)

/-- The divisors that an operation may bring in, in order. -/
def offered (store : Store) : Operation → List String
  | setPower _ key _ | increment _ key _ => [key]
  | union _ j => ((store[j]?).map keys).getD []
  | _ => []

end Operation

/-- Powers without an order: how often each divisor occurs. -/
abbrev Powers := String → Nat

/-- Change one of some functions. -/
def Powers.edit (functions : List Powers) (i : Nat) (change : Powers → Option Powers) :
    Option (List Powers) :=
  functions[i]?.bind fun u => (change u).map (functions.set i)

/-- The last of the values that some pairs give a key. -/
def lastValue (pairs : List (String × Int)) (key : String) : Int :=
  (pairs.reverse.lookup key).getD 0

open Classical in
/-- An operation on plain functions, unless it is refused. -/
noncomputable def Operation.plain (functions : List Powers) : Operation → Option (List Powers)
  | new pairs =>
    if ∃ key, lastValue pairs key < 0 then none
    else some (functions ++ [fun key => (lastValue pairs key).toNat])
  | copy i => functions[i]?.map fun u => functions ++ [u]
  | setPower i key power =>
    Powers.edit functions i fun u =>
      if power < 0 then none else some (Function.update u key power.toNat)
  | increment i key delta =>
    Powers.edit functions i fun u =>
      if u key + delta < 0 then none else some (Function.update u key (u key + delta).toNat)
  | union i j =>
    functions[j]?.bind fun v => Powers.edit functions i fun u => some fun key => u key + v key
  | inter i j =>
    functions[j]?.bind fun v => Powers.edit functions i fun u => some fun key => min (u key) (v key)
  | diff i j _ =>
    functions[j]?.bind fun v => Powers.edit functions i fun u =>
      if ∀ key, v key ≤ u key then some fun key => u key - v key else none

/-- The multisets that a history leaves. -/
def run (ops : List Operation) : Store :=
  ops.foldl (fun store op => op.perform.after store) []

/-- The functions that a history leaves. -/
noncomputable def runPlain (ops : List Operation) : List Powers :=
  ops.foldl (fun functions op => (op.plain functions).getD functions) []

section Outcome

variable {store store' : Store} {i : Nat} {f g : Factors}

private theorem Store.find_of_some (h : store[i]? = some f) : store.find i = .ok f := by
  rw [Store.find, h]

private theorem Store.find_eq_ok_iff : store.find i = .ok f ↔ store[i]? = some f := by
  unfold Store.find
  cases store[i]? <;> simp

private theorem Store.edit_of_ok {change : Factors → Except Failure Factors}
    (h : store.find i = .ok f) : store.edit i change = store.set i <$> change f := by
  rw [Store.edit, h]
  rfl

private theorem Store.edit_of_error {change : Factors → Except Failure Factors} {e : Failure}
    (h : store.find i = .error e) : store.edit i change = .error e := by
  rw [Store.edit, h]
  rfl

/-- An operation in place that changes its multiset at once or not at all does so in the store. -/
theorem Store.inPlace_attempt (i : Nat) (change : Factors → Except Failure Factors) :
    Store.inPlace i (attempt change) = attempt (Store.edit · i change) := by
  funext store
  rw [Store.inPlace, get_bind_apply, lift_bind_apply, attempt_apply]
  cases hfind : store.find i with
  | error e => rw [Store.edit_of_error hfind]
  | ok f =>
    show within _ _ (attempt change) store = _
    rw [within, attempt_apply, Store.edit_of_ok hfind]
    cases change f with
    | ok f' => rfl
    | error e =>
      have hset : store.set i f = store := by
        obtain ⟨hlt, rfl⟩ := List.getElem?_eq_some_iff.mp (Store.find_eq_ok_iff.mp hfind)
        exact List.set_getElem_self hlt
      exact congrArg (EStateM.Result.error e) hset

/-- An operation in place with another operand, which may be the same multiset. -/
theorem Store.inPlaceWith_eq {action : Operand → Action Factors Unit}
    {combine : Factors → Factors → Factors}
    (h : ∀ operand, action operand = attempt fun f => .ok (combine f (operand.now f)))
    (i j : Nat) :
    Store.inPlaceWith i j action = attempt fun store =>
      store.find j >>= fun g => store.edit i fun f => .ok (combine f g) := by
  funext store
  rw [Store.inPlaceWith, get_bind_apply, lift_bind_apply, attempt_apply, Store.operand]
  by_cases hij : i = j
  · subst hij
    rw [if_pos rfl]
    show Store.inPlace i (action .itself) store = _
    rw [h, Store.inPlace_attempt, attempt_apply]
    cases hfind : store.find i with
    | error e => rw [Store.edit_of_error hfind]; rfl
    | ok f =>
      have hsame : (store.edit i fun f' => .ok (combine f' f')) =
          store.edit i fun f' => .ok (combine f' f) := by
        rw [Store.edit_of_ok hfind, Store.edit_of_ok hfind]
      simp only [Operand.now, hsame]
      rfl
  · rw [if_neg hij]
    cases store.find j with
    | error e => rfl
    | ok g =>
      show Store.inPlace i (action (.other g)) store = _
      rw [h, Store.inPlace_attempt, attempt_apply]
      rfl

/-- The steps of an operation come to its outcome, and leave everything as it was if that is a
failure. -/
theorem Operation.perform_eq (op : Operation) : op.perform = attempt op.outcome := by
  cases op with
  | new pairs =>
    funext store
    rw [perform, lift_bind_apply, attempt_apply, outcome]
    cases ofPairs pairs <;> rfl
  | copy i =>
    funext store
    rw [perform, get_bind_apply, lift_bind_apply, attempt_apply, outcome]
    cases store.find i <;> rfl
  | setPower i key power => exact Store.inPlace_attempt i _
  | increment i key delta => exact Store.inPlace_attempt i _
  | union i j => exact Store.inPlaceWith_eq unionWith_eq i j
  | inter i j => exact Store.inPlaceWith_eq intersectWith_eq i j
  | diff i j hne =>
    funext store
    rw [perform, get_bind_apply, lift_bind_apply, attempt_apply, outcome]
    cases store.find j with
    | error e => rfl
    | ok g =>
      show Store.inPlace i (subtract g) store = _
      rw [subtract_eq, Store.inPlace_attempt, attempt_apply]
      rfl

end Outcome

section Construction

variable {pairs : List (String × Int)} {f : Factors}

private theorem foldlM_setPower (h : ∀ pair ∈ pairs, 0 ≤ pair.2) (f : Factors) :
    pairs.foldlM (fun f pair => f.setPower pair.1 pair.2) f =
      .ok (pairs.foldl (fun f pair => f.set pair.1 pair.2.toNat) f) := by
  induction pairs generalizing f with
  | nil => rfl
  | cons pair pairs ih =>
    obtain ⟨hpair, hpairs⟩ := List.forall_mem_cons.mp h
    have hstep : f.setPower pair.1 pair.2 = .ok (f.set pair.1 pair.2.toNat) := by
      rw [setPower, if_neg (by omega)]
    rw [List.foldlM_cons, hstep, List.foldl_cons]
    exact ih hpairs _

private theorem lastValue_of_mem {pair : String × Int} (h : pair ∈ Assoc.ofList pairs) :
    lastValue pairs pair.1 = pair.2 := by
  rw [lastValue, ← Assoc.lookup_ofList,
    Assoc.lookup_eq_some_of_mem (Assoc.nodup_keys_ofList pairs) h, Option.getD_some]

private theorem lastValue_of_notMem {key : String} (h : key ∉ (Assoc.ofList pairs).map Prod.fst) :
    lastValue pairs key = 0 := by
  rw [lastValue, ← Assoc.lookup_ofList, Assoc.lookup_eq_none_of_notMem h, Option.getD_none]

/-- A multiset is made of pairs by setting one power after another, unless some is negative. -/
theorem ofPairs_eq_ok_iff : ofPairs pairs = .ok f ↔ (¬ ∃ key, lastValue pairs key < 0) ∧
    f = empty.settle (fun key => (lastValue pairs key).toNat)
      ((Assoc.ofList pairs).map Prod.fst) := by
  have hsettle : empty.settle (fun key => (lastValue pairs key).toNat)
      ((Assoc.ofList pairs).map Prod.fst) =
        (Assoc.ofList pairs).foldl (fun f pair => f.set pair.1 pair.2.toNat) empty := by
    rw [settle, List.foldl_map]
    exact List.foldl_ext _ _ _ fun g pair hpair => by rw [lastValue_of_mem hpair]
  rw [ofPairs, hsettle]
  constructor
  · intro h
    have hnonneg : ∀ pair ∈ Assoc.ofList pairs, 0 ≤ pair.2 := by
      intro pair hpair
      obtain ⟨g, g', hstep⟩ := Except.exists_of_mem_foldlM h hpair
      unfold setPower at hstep
      split at hstep
      · cases hstep
      · omega
    rw [foldlM_setPower hnonneg] at h
    refine ⟨?_, (Except.ok.inj h).symm⟩
    rintro ⟨key, hkey⟩
    by_cases hmem : key ∈ (Assoc.ofList pairs).map Prod.fst
    · obtain ⟨pair, hpair, rfl⟩ := List.mem_map.mp hmem
      rw [lastValue_of_mem hpair] at hkey
      exact Int.not_lt.mpr (hnonneg pair hpair) hkey
    · rw [lastValue_of_notMem hmem] at hkey
      exact Int.lt_irrefl 0 hkey
  · rintro ⟨hnonneg, rfl⟩
    refine foldlM_setPower (fun pair hpair => ?_) empty
    rw [← lastValue_of_mem hpair]
    exact Int.not_lt.mp fun hlt => hnonneg ⟨pair.1, hlt⟩

private theorem power_of_ofPairs (h : ofPairs pairs = .ok f) :
    f.power = fun key => (lastValue pairs key).toNat := by
  obtain ⟨-, rfl⟩ := ofPairs_eq_ok_iff.mp h
  funext key
  rw [power_settle]
  split
  · rfl
  · rename_i hkey
    rw [lastValue_of_notMem hkey]
    rfl

private theorem continues_of_ofPairs (h : ofPairs pairs = .ok f) :
    Continues ((Assoc.ofList pairs).map Prod.fst) empty f := by
  obtain ⟨-, rfl⟩ := ofPairs_eq_ok_iff.mp h
  exact continues_settle (Assoc.nodup_keys_ofList pairs) empty _

end Construction

section Plain

variable {store : Store} {i : Nat}

/-- What a change makes of the powers. -/
theorem Store.map_edit {change : Factors → Except Failure Factors}
    {change' : Powers → Option Powers}
    (h : ∀ f, (change f).toOption.map power = change' f.power) :
    (store.edit i change).toOption.map (List.map power) =
      Powers.edit (store.map power) i change' := by
  rw [Powers.edit, List.getElem?_map]
  cases hfind : store[i]? with
  | none =>
    have hnone : store.find i = .error (.unknownHandle i) := by rw [Store.find, hfind]
    rw [Store.edit_of_error hnone]
    rfl
  | some f =>
    rw [Store.edit_of_ok (Store.find_of_some hfind), Option.map_some, Option.bind_some, ← h]
    cases change f with
    | error e => rfl
    | ok f' => exact congrArg some List.map_set

private theorem Store.map_find_bind {next : Factors → Except Failure Store}
    {next' : Powers → Option (List Powers)}
    (h : ∀ g, (next g).toOption.map (List.map power) = next' g.power) :
    (store.find i >>= next).toOption.map (List.map power) =
      (store.map power)[i]?.bind next' := by
  rw [List.getElem?_map, Store.find]
  cases store[i]? with
  | none => rfl
  | some g => exact h g

private theorem map_setPower (f : Factors) (key : String) (p : Int) :
    (f.setPower key p).toOption.map power =
      if p < 0 then none else some (Function.update f.power key p.toNat) := by
  rw [setPower]
  split
  · rfl
  · refine congrArg some (funext fun k => ?_)
    rw [power_set, Function.update_apply]

private theorem map_diff? (f g : Factors) : (f.diff? g).toOption.map power =
    open Classical in
    if ∀ key, g.power key ≤ f.power key then some fun key => f.power key - g.power key
    else none := by
  rw [diff?]
  cases hlacking : f.lacking? g with
  | none =>
    rw [if_pos (lacking?_eq_none_iff.mp hlacking)]
    exact congrArg some (funext (power_diff f g))
  | some missing =>
    rw [if_neg fun hle => by rw [lacking?_eq_none_iff.mpr hle] at hlacking; cases hlacking]
    rfl

/-- The powers go the way of the plain functions. -/
theorem Operation.map_outcome (op : Operation) (store : Store) :
    (op.outcome store).toOption.map (List.map power) = op.plain (store.map power) := by
  cases op with
  | new pairs =>
    rw [outcome, plain]
    cases hmade : ofPairs pairs with
    | error e =>
      have hrefused : ∃ key, lastValue pairs key < 0 := by
        by_contra hnone
        cases hmade.symm.trans (ofPairs_eq_ok_iff.mpr ⟨hnone, rfl⟩)
      rw [if_pos hrefused]
      rfl
    | ok f =>
      rw [if_neg (ofPairs_eq_ok_iff.mp hmade).1, ← power_of_ofPairs hmade]
      exact congrArg some List.map_append
  | copy i =>
    rw [outcome, plain, List.getElem?_map, Store.find]
    cases store[i]? with
    | none => rfl
    | some f => exact congrArg some List.map_append
  | setPower i key p => exact Store.map_edit fun f => map_setPower f key p
  | increment i key delta => exact Store.map_edit fun f => map_setPower f key _
  | union i j =>
    exact Store.map_find_bind fun g => Store.map_edit fun f =>
      congrArg some (funext (power_union f g))
  | inter i j =>
    exact Store.map_find_bind fun g => Store.map_edit fun f =>
      congrArg some (funext (power_inter f g))
  | diff i j hne => exact Store.map_find_bind fun g => Store.map_edit fun f => map_diff? f g

private theorem Operation.map_after (op : Operation) (store : Store) :
    (op.perform.after store).map power =
      (op.plain (store.map power)).getD (store.map power) := by
  rw [← op.map_outcome store, after, op.perform_eq, attempt_apply]
  cases op.outcome store <;> rfl

private theorem Operation.failure?_eq_none_iff (op : Operation) (store : Store) :
    op.perform.failure? store = none ↔ (op.plain (store.map power)).isSome = true := by
  rw [← op.map_outcome store, failure?, op.perform_eq, attempt_apply]
  cases op.outcome store <;> simp [Except.toOption]

private theorem map_run (ops : List Operation) : (run ops).map power = runPlain ops := by
  have hfold : ∀ store : Store,
      (ops.foldl (fun store op => op.perform.after store) store).map power =
        ops.foldl (fun functions op => (op.plain functions).getD functions) (store.map power) := by
    induction ops with
    | nil => exact fun _ => rfl
    | cons op ops ih =>
      intro store
      rw [List.foldl_cons, List.foldl_cons, ih, op.map_after]
  exact hfold []

end Plain

section Order

variable {store store' : Store} {i : Nat} {f : Factors}

private theorem Store.edit_continues {offered : List String}
    {change : Factors → Except Failure Factors}
    (hchange : ∀ f f', change f = .ok f' → Continues offered f f')
    (h : store.edit i change = .ok store') {k : Nat} (hf : store[k]? = some f) :
    ∃ f', store'[k]? = some f' ∧ Continues offered f f' := by
  obtain ⟨g, hg, h⟩ := Except.bind_eq_ok_iff.mp h
  obtain ⟨g', hg', rfl⟩ := Except.map_eq_ok_iff.mp h
  rw [List.getElem?_set]
  split
  · rename_i hik
    subst hik
    rw [Store.find_eq_ok_iff, hf, Option.some.injEq] at hg
    subst hg
    obtain ⟨hlt, -⟩ := List.getElem?_eq_some_iff.mp hf
    exact ⟨g', if_pos hlt, hchange f g' hg'⟩
  · exact ⟨f, hf, continues_refl _ f⟩

private theorem continues_of_setPower {key : String} {p : Int} {f' : Factors}
    (h : f.setPower key p = .ok f') : Continues [key] f f' := by
  unfold setPower at h
  split at h
  · cases h
  · cases h
    exact continues_set f key _

/-- What an operation does to the order of the divisors. -/
theorem Operation.outcome_continues {op : Operation} (h : op.outcome store = .ok store') {k : Nat}
    (hf : store[k]? = some f) :
    ∃ f', store'[k]? = some f' ∧ Continues (op.offered store) f f' := by
  obtain ⟨hlt, -⟩ := List.getElem?_eq_some_iff.mp hf
  -- A new multiset goes to the end of the store, any other operation edits one multiset in place.
  cases op with
  | new pairs =>
    obtain ⟨g, -, rfl⟩ := Except.map_eq_ok_iff.mp h
    exact ⟨f, (List.getElem?_append_left hlt).trans hf, continues_refl _ f⟩
  | copy i =>
    obtain ⟨g, -, rfl⟩ := Except.map_eq_ok_iff.mp h
    exact ⟨f, (List.getElem?_append_left hlt).trans hf, continues_refl _ f⟩
  | setPower i key p => exact Store.edit_continues (fun _ _ => continues_of_setPower) h hf
  | increment i key delta => exact Store.edit_continues (fun _ _ => continues_of_setPower) h hf
  | union i j =>
    obtain ⟨g, hg, h⟩ := Except.bind_eq_ok_iff.mp h
    rw [offered, Store.find_eq_ok_iff.mp hg]
    refine Store.edit_continues (fun f f' hf' => ?_) h hf
    cases hf'
    exact continues_union f g
  | inter i j =>
    obtain ⟨g, hg, h⟩ := Except.bind_eq_ok_iff.mp h
    refine Store.edit_continues (fun f f' hf' => ?_) h hf
    cases hf'
    exact continues_inter _ f g
  | diff i j hne =>
    obtain ⟨g, hg, h⟩ := Except.bind_eq_ok_iff.mp h
    refine Store.edit_continues (fun f f' hf' => ?_) h hf
    unfold diff? at hf'
    split at hf' <;> cases hf'
    exact continues_diff _ f g

/-- Whether an operation succeeds or is refused, no multiset changes its order in another way. -/
theorem Operation.after_continues (op : Operation) (hf : store[i]? = some f) :
    ∃ f', (op.perform.after store)[i]? = some f' ∧ Continues (op.offered store) f f' := by
  rw [after, op.perform_eq, attempt_apply]
  cases h : op.outcome store with
  | ok store' => exact op.outcome_continues h hf
  | error e => exact ⟨f, hf, continues_refl _ f⟩

end Order

section Subtraction

variable {store : Store} {i j : Nat} {f g : Factors}

private theorem failure?_diff (hne : i ≠ j) (hf : store[i]? = some f) (hg : store[j]? = some g) :
    (Operation.diff i j hne).perform.failure? store =
      match f.diff? g with
      | .ok _ => none
      | .error e => some e := by
  have houtcome : (Operation.diff i j hne).outcome store = store.set i <$> f.diff? g := by
    rw [Operation.outcome, Store.find_of_some hg]
    exact Store.edit_of_ok (Store.find_of_some hf)
  rw [failure?, Operation.perform_eq, attempt_apply, houtcome]
  cases f.diff? g <;> rfl

/-- The first divisor that is lacking is the one that is named. -/
theorem lacking?_of_first {before after : List String} {key : String}
    (hkeys : g.keys = before ++ key :: after) (hbefore : ∀ k ∈ before, g.power k ≤ f.power k)
    (hkey : f.power key < g.power key) : f.lacking? g = some (key, g.power key) := by
  rw [lacking?, entries_eq, List.find?_map, Option.map_eq_some_iff]
  refine ⟨key, List.find?_eq_some_iff_append.mpr ⟨Nat.blt_eq.mpr hkey, before, after, hkeys, ?_⟩,
    rfl⟩
  intro k hk
  have hle := Nat.not_lt.mpr (hbefore k hk)
  rw [Bool.not_eq_true', Bool.eq_false_iff]
  exact fun hblt => hle (Nat.blt_eq.mp hblt)

private theorem failure?_diff_iff (hne : i ≠ j) (hf : store[i]? = some f)
    (hg : store[j]? = some g) : (∃ e, (Operation.diff i j hne).perform.failure? store = some e) ↔
      ∃ key, f.power key < g.power key := by
  rw [failure?_diff hne hf hg, diff?]
  have hnone := lacking?_eq_none_iff (f := f) (g := g)
  cases hlacking : f.lacking? g with
  | none =>
    have hle := hnone.mp hlacking
    simpa using hle
  | some missing =>
    have hlt : ∃ key, f.power key < g.power key := by
      by_contra hcontra
      simp only [not_exists, Nat.not_lt] at hcontra
      rw [hnone.mpr hcontra] at hlacking
      cases hlacking
    simpa using hlt

end Subtraction

/-- What a history `ops` and one operation `op` more come to. -/
structure Faithful (ops : List Operation) (op : Operation) : Prop where
  /-- No divisor is kept twice, or without power. -/
  kept : ∀ f ∈ run ops, f.keys.Nodup ∧ ∀ entry ∈ f.entries, 1 ≤ entry.2
  powers : (run ops).map power = runPlain ops
  beq_iff : ∀ f ∈ run ops, ∀ g ∈ run ops, (f == g) = true ↔ ∀ key, f.power key = g.power key
  /-- An operation is refused when it is on plain functions, and does nothing then. -/
  refused_iff : (∃ e, op.perform.failure? (run ops) = some e) ↔ op.plain (runPlain ops) = none
  atomic : ∀ e store, op.perform (run ops) = .error e store → store = run ops
  /-- Divisors that stay keep their places, and those that come in go to the end. -/
  order : ∀ (i : Nat) f, (run ops)[i]? = some f →
    ∃ f', (op.perform.after (run ops))[i]? = some f' ∧ Continues (op.offered (run ops)) f f'
  copy : ∀ (i : Nat) f, (run ops)[i]? = some f →
    (Operation.copy i).perform (run ops) = .ok () (run ops ++ [f])
  new : ∀ pairs f, ofPairs pairs = .ok f →
    (Operation.new pairs).perform (run ops) = .ok () (run ops ++ [f]) ∧
      Continues ((Assoc.ofList pairs).map Prod.fst) empty f
  /-- A subtraction is refused when a divisor is lacking, -/
  lacking_iff : ∀ (i j : Nat) hne f g, (run ops)[i]? = some f → (run ops)[j]? = some g →
    ((∃ e, (Operation.diff i j hne).perform.failure? (run ops) = some e) ↔
      ∃ key, f.power key < g.power key)
  /-- and names the first one, unless its power is too large to be told. -/
  named : ∀ (i j : Nat) hne f g, (run ops)[i]? = some f → (run ops)[j]? = some g →
    ∀ before key after, g.keys = before ++ key :: after →
      (∀ k ∈ before, g.power k ≤ f.power k) → f.power key < g.power key →
        (Operation.diff i j hne).perform.failure? (run ops) =
          if (g.power key).repr.length ≤ Numeral.maxDigits then
            some (.missingPower key (f.power key) (g.power key))
          else some .numberTooLarge
  /-- Once nothing is lacking, taking off cannot fail. -/
  taken : ∀ f g t, requireAll g f = .ok () t → ∃ rest, takeOff g t = .ok () rest

/-- After any history of operations on any number of multisets, each of them has the powers that the
operations on its powers give, and an operation that is refused changes none of them. -/
theorem history_faithful (ops : List Operation) (op : Operation) : Faithful ops op where
  kept := fun f _ => ⟨f.nodup, f.pos_of_mem⟩
  powers := map_run ops
  beq_iff := fun _ _ _ _ => Factors.beq_iff
  refused_iff := by
    have hnone := op.failure?_eq_none_iff (run ops)
    rw [map_run] at hnone
    rw [← Option.isSome_iff_exists, ← Option.not_isSome_iff_eq_none, ← hnone]
    exact Option.isSome_iff_ne_none
  atomic := by
    intro e store h
    rw [op.perform_eq, attempt_apply] at h
    cases houtcome : op.outcome (run ops) with
    | ok store' => rw [houtcome] at h; cases h
    | error e' => rw [houtcome] at h; cases h; rfl
  order := fun _ _ hf => op.after_continues hf
  copy := by
    intro i f hf
    rw [Operation.perform_eq]
    exact attempt_of_ok (by rw [Operation.outcome, Store.find_of_some hf]; rfl)
  new := by
    intro pairs f hf
    rw [Operation.perform_eq]
    exact ⟨attempt_of_ok (by rw [Operation.outcome, hf]; rfl), continues_of_ofPairs hf⟩
  lacking_iff := fun _ _ hne _ _ hf hg => failure?_diff_iff hne hf hg
  named := by
    intro i j hne f g hf hg before key after hkeys hbefore hkey
    rw [failure?_diff hne hf hg, diff?, lacking?_of_first hkeys hbefore hkey]
    dsimp only
    rw [Numeral.telling]
    simp only [Numeral.isWritable_iff_length]
    split <;> rfl
  taken := by
    intro f g t h
    rw [requireAll_eq] at h
    cases hlacking : f.lacking? g with
    | some missing => rw [hlacking] at h; cases h
    | none =>
      rw [hlacking] at h
      cases h
      exact ⟨f.diff g, takeOff_eq (lacking?_eq_none_iff.mp hlacking)⟩

/-- An empty multiset, and one with the divisor `x`, whose power is doubled. -/
def doubling (n : Nat) : List Operation :=
  [.new [], .new [("x", n)], .union 1 1]

private theorem runPlain_doubling (n : Nat) : runPlain (doubling n) =
    [fun _ => 0, fun key => 2 * if key = "x" then n else 0] := by
  have hvalue (key : String) :
      lastValue [("x", (n : Int))] key = if key = "x" then (n : Int) else 0 := by
    by_cases h : key = "x" <;> simp [lastValue, List.lookup_cons, h, beq_false_of_ne]
  have hnonneg : ¬ ∃ key, lastValue [("x", (n : Int))] key < 0 := by
    rintro ⟨key, h⟩
    rw [hvalue] at h
    split at h <;> omega
  have hnone : ∀ key, lastValue [] key = 0 := fun _ => rfl
  simp [runPlain, doubling, Operation.plain, Powers.edit, hnonneg, hnone]
  funext key
  rw [hvalue]
  split
  · rw [Int.toNat_natCast]
    omega
  · rfl

private theorem isWritable_doubled {d : Nat} (hd : d + 1 = Numeral.maxDigits) :
    Numeral.isWritable (2 * (5 * 10 ^ d)) = false := by
  refine Bool.eq_false_iff.mpr fun hwritable => ?_
  have hlt := Numeral.isWritable_iff.mp hwritable
  rw [← hd, Nat.pow_succ] at hlt
  omega

/-- A subtraction that is refused does not always name the divisor that is lacking: its power may
have too many digits to be written into the failure. -/
theorem subtraction_untold : ¬ ∀ (ops : List Operation) (i j : Nat) (hne : i ≠ j) (f g : Factors),
    (run ops)[i]? = some f → (run ops)[j]? = some g →
      ((∃ key present wanted, (Operation.diff i j hne).perform.failure? (run ops) =
        some (.missingPower key present wanted)) ↔ ∃ key, f.power key < g.power key) := by
  intro h
  let ops := doubling (5 * 10 ^ (Numeral.maxDigits - 1))
  have hpowers : (run ops).map power = _ := (map_run ops).trans (runPlain_doubling _)
  obtain ⟨f, rest, hrun, hf, hrest⟩ := List.map_eq_cons_iff.mp hpowers
  obtain ⟨g, rest', rfl, hg, -⟩ := List.map_eq_cons_iff.mp hrest
  have hfpower : ∀ key, f.power key = 0 := congrFun hf
  have hgpower : ∀ key,
      g.power key = 2 * if key = "x" then 5 * 10 ^ (Numeral.maxDigits - 1) else 0 := congrFun hg
  have hfirst : (run ops)[0]? = some f := by rw [hrun]; rfl
  have hsecond : (run ops)[1]? = some g := by rw [hrun]; rfl
  have hlacking : f.power "x" < g.power "x" := by
    rw [hfpower, hgpower, if_pos rfl]
    exact Nat.mul_pos (by decide) (Nat.mul_pos (by decide) (Nat.pow_pos (by decide)))
  have hlarge : Numeral.isWritable (g.power "x") = false := by
    rw [hgpower, if_pos rfl]
    exact isWritable_doubled rfl
  obtain ⟨key, present, wanted, hnamed⟩ :=
    (h ops 0 1 Nat.zero_ne_one f g hfirst hsecond).mpr ⟨"x", hlacking⟩
  rw [failure?_diff _ hfirst hsecond, diff?] at hnamed
  cases hmissing : f.lacking? g with
  | none => rw [hmissing] at hnamed; cases hnamed
  | some missing =>
    obtain ⟨key', wanted'⟩ := missing
    -- Only `x` can be lacking, and its power cannot be told.
    have hentry : g.power key' = wanted' := power_of_mem (List.mem_of_find?_eq_some hmissing)
    have hlt : f.power key' < wanted' := by
      rw [lacking?] at hmissing
      simpa [Nat.blt_eq] using List.find?_some hmissing
    have hx : key' = "x" := by
      by_contra hne
      rw [hgpower, if_neg hne] at hentry
      omega
    rw [hmissing] at hnamed
    dsimp only at hnamed
    rw [← hentry, hx, Numeral.telling, hlarge, if_neg Bool.false_ne_true] at hnamed
    cases hnamed

end Dataflow.Factors
