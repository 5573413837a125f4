import Dataflow.Balance.Solver
import Dataflow.Proofs.Graph.Preservation
import Dataflow.Proofs.Graph.Rates

namespace Dataflow

open Dataflow.Action

namespace RateCache

variable {cache cache' : RateCache} {g : Graph}

/-- Every rate that was kept is the rate of its port. -/
def Agrees (cache : RateCache) (g : Graph) : Prop :=
  ∀ handle m, cache.entries.lookup handle = some m →
    ∃ text, g.rates.lookup handle = some text ∧ Monomial.parse text = .ok m

theorem Agrees.empty (g : Graph) : RateCache.empty.Agrees g := by
  intro handle m h
  simp [RateCache.empty] at h

private theorem Agrees.perform (h : cache.Agrees g) (op : Graph.Operation) :
    cache.Agrees (op.perform.after g) := by
  intro handle m hlookup
  obtain ⟨text, hrate, hparse⟩ := h handle m hlookup
  exact ⟨text, (op.changes g).keeps (fun hstep => hstep.hasRate) hrate, hparse⟩

theorem Agrees.insert (h : cache.Agrees g) {p : Port} {text : String} {m : Monomial}
    (hrate : g.rateText? p = some text) (hparse : Monomial.parse text = .ok m) :
    (⟨cache.entries ++ [(p.id, m)]⟩ : RateCache).Agrees g := by
  intro handle m' hlookup
  rw [List.lookup_append, Option.or_eq_some_iff] at hlookup
  obtain hold | ⟨-, hnew⟩ := hlookup
  · exact h handle m' hold
  · cases hid : handle == p.id with
    | false => simp [List.lookup_cons, hid] at hnew
    | true =>
      simp only [List.lookup_cons, hid, Option.some.injEq] at hnew
      rw [eq_of_beq hid, ← hnew]
      exact ⟨text, hrate, hparse⟩

theorem rate?_keeps {p : Port} : (rate? g p).Keeps (Agrees · g) := by
  unfold rate?
  apply keeps_get_bind
  intro cache hcache
  cases cache.entries.lookup p.id with
  | some m => exact hcache
  | none =>
    cases hrate : g.rateText? p with
    | none => exact hcache
    | some text =>
      refine after_ofExcept_bind (P := (Agrees · g)) hcache fun m hparse => ?_
      have hkeep : Keeps (Agrees · g)
          (modify fun cache : RateCache => ⟨cache.entries ++ [(p.id, m)]⟩) :=
        keeps_modify fun _ hcache => hcache.insert hrate hparse
      exact hkeep.bind (fun _ => keeps_pure (some m)) cache hcache

theorem rate_keeps {p : Port} : (rate g p).Keeps (Agrees · g) := by
  refine rate?_keeps.bind fun found => ?_
  cases found with
  | some m => exact keeps_pure m
  | none => exact keeps_throw _

theorem parseAll_keeps : (parseAll g).Keeps (Agrees · g) :=
  keeps_forM fun _ _ => rate?_keeps.bind fun _ => keeps_pure _

/-- Looking for a rate finds the one that the port has, whether or not it was kept, or that the port
has none. -/
theorem rate?_eq_ok (hcache : cache.Agrees g) {p : Port} {found : Option Monomial}
    (h : rate? g p cache = .ok found cache') :
    (∀ m ∈ found, g.readRate p = .ok m) ∧ (found = none → g.rateText? p = none) := by
  rw [rate?, get_bind_apply] at h
  cases hlookup : cache.entries.lookup p.id with
  | some m =>
    -- What was kept is right because the cache agrees.
    rw [hlookup] at h
    cases h
    obtain ⟨text, hrate, hparse⟩ := hcache _ _ hlookup
    simp [Graph.readRate, Graph.rateText?, hrate, hparse]
  | none =>
    cases htext : g.rateText? p with
    | none =>
      simp only [hlookup, htext] at h
      cases h
      simp
    | some text =>
      simp only [hlookup, htext] at h
      obtain ⟨m, _, hparse, h⟩ := bind_eq_ok_iff.mp h
      obtain ⟨_, _, -, h⟩ := bind_eq_ok_iff.mp h
      cases h
      simp [Graph.readRate, htext, (lift_eq_ok_iff.mp hparse).1]

theorem rate_eq_ok (hcache : cache.Agrees g) {p : Port} {m : Monomial}
    (h : rate g p cache = .ok m cache') : g.readRate p = .ok m ∧ cache'.Agrees g := by
  refine ⟨?_, rate_keeps.of_ok hcache h⟩
  obtain ⟨found, _, hfound, h⟩ := bind_eq_ok_iff.mp h
  cases found with
  | some m' =>
    cases h
    exact (rate?_eq_ok hcache hfound).1 m rfl
  | none => cases h

theorem exists_rate (hcache : cache.Agrees g) {p : Port} {m : Monomial} (h : g.readRate p = .ok m) :
    ∃ cache', rate g p cache = .ok m cache' ∧ cache'.Agrees g := by
  obtain ⟨cache', hfound⟩ : ∃ cache', rate? g p cache = .ok (some m) cache' := by
    rw [rate?, get_bind_apply]
    unfold Graph.readRate at h
    cases hlookup : cache.entries.lookup p.id with
    | some kept =>
      obtain ⟨text, htext, hparse⟩ := hcache _ _ hlookup
      have hrate : g.rateText? p = some text := htext
      rw [hrate] at h
      obtain rfl : kept = m := Except.ok.inj (hparse.symm.trans h)
      exact ⟨cache, rfl⟩
    | none =>
      cases htext : g.rateText? p with
      | none =>
        rw [htext] at h
        cases h
      | some text =>
        rw [htext] at h
        exact ⟨_, bind_eq_ok_iff.mpr ⟨m, cache, lift_eq_ok_iff.mpr ⟨h, rfl⟩, rfl⟩⟩
  have hrate : rate g p cache = .ok m cache' := bind_eq_ok_iff.mpr ⟨_, _, hfound, rfl⟩
  exact ⟨cache', hrate, rate_keeps.of_ok hcache hrate⟩

/-- What one cache holds, the other holds as well. -/
def KeptBy (cache cache' : RateCache) : Prop :=
  ∀ handle m, cache.entries.lookup handle = some m → cache'.entries.lookup handle = some m

/-- A rate that was looked up is held from then on, whatever the cache held before. -/
theorem rate_held {p : Port} {m : Monomial} (h : rate g p cache = .ok m cache') :
    cache.KeptBy cache' ∧ cache'.entries.lookup p.id = some m := by
  obtain ⟨found, _, hfound, h⟩ := bind_eq_ok_iff.mp h
  cases found with
  | none => cases h
  | some m' =>
    cases h
    rw [rate?, get_bind_apply] at hfound
    cases hlookup : cache.entries.lookup p.id with
    | some kept =>
      rw [hlookup] at hfound
      cases hfound
      exact ⟨fun _ _ => id, hlookup⟩
    | none =>
      cases htext : g.rateText? p with
      | none =>
        simp only [hlookup, htext] at hfound
        cases hfound
      | some text =>
        simp only [hlookup, htext] at hfound
        obtain ⟨parsed, _, hparse, hfound⟩ := bind_eq_ok_iff.mp hfound
        obtain ⟨-, rfl⟩ := lift_eq_ok_iff.mp hparse
        cases hfound
        refine ⟨fun handle m h => ?_, ?_⟩
        · rw [List.lookup_append, h, Option.some_or]
        · rw [List.lookup_append, hlookup, Option.none_or, List.lookup_cons_self]

end RateCache

namespace Balance

variable {g : Graph}

theorem propagate_keeps (fractions : Fractions) (tree : List Link) :
    (propagate g fractions tree).Keeps (RateCache.Agrees · g) := by
  induction tree generalizing fractions with
  | nil => exact keeps_pure fractions
  | cons link tree ih =>
    refine RateCache.rate_keeps.bind fun nearRate => ?_
    refine RateCache.rate_keeps.bind fun farRate => ?_
    exact (keeps_ofExcept _).bind fun near => ih _

theorem imbalance_keeps (fractions : Fractions) (c : Channel) :
    (imbalance g fractions c).Keeps (RateCache.Agrees · g) := by
  refine (keeps_ofExcept _).bind fun source => ?_
  refine RateCache.rate_keeps.bind fun produced => ?_
  refine (keeps_ofExcept _).bind fun target => ?_
  exact RateCache.rate_keeps.bind fun consumed => keeps_pure _

theorem mismatch?_keeps (fractions : Fractions) (channels : List Channel) :
    (mismatch? g fractions channels).Keeps (RateCache.Agrees · g) := by
  induction channels with
  | nil => exact keeps_pure none
  | cons c channels ih =>
    refine (imbalance_keeps fractions c).bind fun ratio => ?_
    split
    · exact ih
    · exact keeps_pure _

private theorem solveFrom_keeps (start : Actor) :
    (solveFrom g start).Keeps (RateCache.Agrees · g) := by
  refine (propagate_keeps _ _).bind fun fractions => ?_
  split
  · exact keeps_of_after_eq fun _ => rfl
  · refine (mismatch?_keeps _ _).bind fun found => ?_
    cases found with
    | some evidence => exact keeps_pure _
    | none => exact (keeps_ofExcept _).bind fun table => keeps_pure _

theorem solve_keeps (start : Option Actor) : (solve g start).Keeps (RateCache.Agrees · g) := by
  unfold solve
  cases g.actors.head? with
  | none => exact keeps_pure _
  | some first => exact solveFrom_keeps _

end Balance

/-- The caches that were used with one graph only, while it was built and afterwards. -/
inductive RateCache.UsedWith : RateCache → Graph → Prop
  | start (name : Option String) : UsedWith .empty (.empty name)
  | edit {cache : RateCache} {g : Graph} (op : Graph.Operation) (h : UsedWith cache g) :
    UsedWith cache (op.perform.after g)
  | lookUp {cache : RateCache} {g : Graph} (p : Port) (h : UsedWith cache g) :
    UsedWith ((RateCache.rate? g p).after cache) g
  | parseAll {cache : RateCache} {g : Graph} (h : UsedWith cache g) :
    UsedWith ((RateCache.parseAll g).after cache) g
  | solve {cache : RateCache} {g : Graph} (start : Option Actor) (h : UsedWith cache g) :
    UsedWith ((Balance.solve g start).after cache) g
  | clear {cache : RateCache} {g : Graph} (h : UsedWith cache g) : UsedWith .empty g

namespace RateCache.UsedWith

variable {cache : RateCache} {g : Graph}

theorem reachable (h : cache.UsedWith g) : g.Reachable := by
  induction h with
  | start name => exact .empty name
  | edit op _ ih => exact ih.perform op
  | lookUp _ _ ih => exact ih
  | parseAll _ ih => exact ih
  | solve _ _ ih => exact ih
  | clear _ ih => exact ih

theorem agrees (h : cache.UsedWith g) : cache.Agrees g := by
  induction h with
  | start name => exact .empty _
  | edit op _ ih => exact ih.perform op
  | lookUp _ _ ih => exact rate?_keeps _ ih
  | parseAll _ ih => exact parseAll_keeps _ ih
  | solve start _ ih => exact Balance.solve_keeps start _ ih
  | clear _ _ => exact .empty _

theorem performAll (h : cache.UsedWith g) (ops : List Graph.Operation) :
    cache.UsedWith (g.performAll ops) := by
  induction ops generalizing g with
  | nil => exact h
  | cons op ops ih => exact ih (h.edit op)

end RateCache.UsedWith

end Dataflow
