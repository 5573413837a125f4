import Dataflow.Factors

namespace Dataflow.Factors

variable {f g h : Factors}

theorem nodup (f : Factors) : f.keys.Nodup :=
  f.nodup_keys

theorem entries_eq (f : Factors) : f.entries = f.keys.map fun key => (key, f.power key) := by
  rw [keys, List.map_map]
  refine (List.map_id f.entries).symm.trans (List.map_congr_left fun entry hentry => ?_)
  exact Prod.ext rfl (power_of_mem hentry).symm

/-- Multisets with the same divisors in the same order, as often each, are the same. -/
theorem eq_of_keys_eq (hkeys : f.keys = g.keys) (hpower : ∀ key, f.power key = g.power key) :
    f = g := by
  have hentries : f.entries = g.entries := by
    rw [entries_eq f, entries_eq g, hkeys, funext hpower]
  cases f
  cases g
  cases hentries
  rfl

/-- The divisors of `g` are those of `f` that are left, in their order, and behind them the new ones
among those that are offered. -/
def Continues (offered : List String) (f g : Factors) : Prop :=
  g.keys = (f.keys.filter fun key => 0 < g.power key) ++
    offered.filter fun key => f.power key = 0 ∧ 0 < g.power key

/-- There is one continuation with given powers. -/
theorem Continues.eq {offered : List String} (hg : Continues offered f g)
    (hh : Continues offered f h) (hpower : ∀ key, g.power key = h.power key) : g = h := by
  refine eq_of_keys_eq ?_ hpower
  rw [hg, hh]
  simp only [hpower]

/-- Where no divisor comes in, it does not matter which ones are offered. -/
theorem continues_of_keys {offered : List String}
    (hkeys : g.keys = f.keys.filter fun key => 0 < g.power key)
    (hnew : ∀ key, f.power key = 0 → g.power key = 0) : Continues offered f g := by
  have hnone : offered.filter (fun key => f.power key = 0 ∧ 0 < g.power key) = [] :=
    List.filter_eq_nil_iff.mpr fun key _ => by
      have hzero := hnew key
      simp only [decide_eq_true_eq]
      omega
  rw [Continues, hnone, List.append_nil]
  exact hkeys

/-- Continuations that concern different divisors make one. -/
theorem Continues.trans {offered offered' : List String} (hg : Continues offered f g)
    (hh : Continues offered' g h) (hdisjoint : ∀ key ∈ offered, key ∉ offered')
    (hsame : ∀ key ∈ offered', g.power key = f.power key)
    (hrest : ∀ key, key ∉ offered' → h.power key = g.power key) :
    Continues (offered ++ offered') f h := by
  rw [Continues, hh, hg, List.filter_append, List.filter_append, List.append_assoc,
    List.filter_filter, List.filter_filter]
  congr 1
  · refine List.filter_congr fun key hkey => ?_
    have hpos := power_pos_iff.mpr hkey
    by_cases hmem : key ∈ offered'
    · simp [hsame key hmem, hpos]
    · simp [hrest key hmem]
  congr 1
  · refine List.filter_congr fun key hkey => ?_
    rw [hrest key (hdisjoint key hkey), Bool.eq_iff_iff]
    simp only [Bool.and_eq_true, decide_eq_true_eq]
    omega
  · exact List.filter_congr fun key hkey => by rw [hsame key hkey]

private theorem filter_power_pos (f : Factors) :
    (f.keys.filter fun key => 0 < f.power key) = f.keys :=
  List.filter_eq_self.mpr fun _ hkey => decide_eq_true (power_pos_iff.mpr hkey)

theorem continues_refl (offered : List String) (f : Factors) : Continues offered f f :=
  continues_of_keys f.filter_power_pos.symm fun _ => id

section Reshape

variable {change : String → Nat → Nat}

private theorem map_fst_reshapeEntries (change : String → Nat → Nat)
    (entries : List (String × Nat)) : (reshapeEntries change entries).map Prod.fst =
      (entries.filter fun entry => change entry.1 entry.2 ≠ 0).map Prod.fst := by
  induction entries with
  | nil => rfl
  | cons entry rest ih =>
    rw [reshapeEntries]
    by_cases hzero : change entry.1 entry.2 = 0 <;> simpa [hzero] using ih

private theorem keys_reshape (change : String → Nat → Nat) (f : Factors) :
    (f.reshape change).keys = f.keys.filter fun key => 0 < change key (f.power key) := by
  rw [keys, keys, List.filter_map]
  refine (map_fst_reshapeEntries change f.entries).trans (congrArg _ ?_)
  refine List.filter_congr fun entry hentry => ?_
  simp [power_of_mem hentry, Nat.pos_iff_ne_zero]

/-- A change that leaves absent divisors absent drops those without power and brings none in. -/
theorem continues_reshape (offered : List String) (change : String → Nat → Nat)
    (hzero : ∀ key, change key 0 = 0) (f : Factors) : Continues offered f (f.reshape change) := by
  refine continues_of_keys ?_ fun key hkey => ?_
  · simp only [keys_reshape, power_reshape change hzero]
  · rw [power_reshape change hzero, hkey, hzero]

end Reshape

theorem continues_inter (offered : List String) (f g : Factors) :
    Continues offered f (f.inter g) :=
  continues_reshape offered (fun key p => min p (g.power key)) (fun _ => Nat.zero_min _) f

theorem continues_diff (offered : List String) (f g : Factors) :
    Continues offered f (f.diff g) :=
  continues_reshape offered (fun key p => p - g.power key) (fun _ => Nat.zero_sub _) f

theorem continues_union (f g : Factors) : Continues g.keys f (f.union g) := by
  have hkeys : (f.union g).keys = (f.reshape fun key p => p + g.power key).keys ++
      (g.reshape fun key p => if f.contains key then 0 else p).keys := List.map_append
  rw [Continues, hkeys, keys_reshape, keys_reshape]
  congr 1
  · simp only [power_union]
  · refine List.filter_congr fun key hkey => ?_
    have hg := power_pos_iff.mpr hkey
    rw [power_union]
    by_cases h : f.contains key = true
    · have hf := power_pos_iff.mpr (contains_iff.mp h)
      simp [h, Nat.pos_iff_ne_zero.mp hf]
    · have hf := power_eq_zero_of_notMem (mt contains_iff.mpr h)
      simp [h, hf]

theorem continues_set (f : Factors) (key : String) (p : Nat) :
    Continues [key] f (f.set key p) := by
  by_cases hzero : p = 0
  · have hset : f.set key p = f.erase key := dif_pos hzero
    rw [hset]
    exact continues_reshape _ (fun k p => if k = key then 0 else p) (fun _ => ite_self 0) f
  · have hset : (f.set key p).keys = (Assoc.insert key p f.entries).map Prod.fst := by
      rw [set, dif_neg hzero]
      rfl
    have hstay : (f.keys.filter fun k => 0 < (f.set key p).power k) = f.keys := by
      refine List.filter_eq_self.mpr fun k hk => ?_
      have hpos := power_pos_iff.mpr hk
      rw [power_set]
      split <;> simp <;> omega
    rw [Continues, hstay, hset, Assoc.keys_insert]
    split
    · rename_i hmem
      have hpos := power_pos_iff.mpr hmem
      simp [Nat.pos_iff_ne_zero.mp hpos, keys]
    · rename_i hmem
      simp [power_eq_zero_of_notMem hmem, Nat.pos_of_ne_zero hzero, keys]

section Settle

/-- Give divisors new powers, one after another. -/
def settle (f : Factors) (target : String → Nat) (keys : List String) : Factors :=
  keys.foldl (fun f key => f.set key (target key)) f

variable {target : String → Nat} {keys : List String}

theorem settle_concat (f : Factors) (target : String → Nat) (keys : List String) (key : String) :
    f.settle target (keys ++ [key]) = (f.settle target keys).set key (target key) :=
  List.foldl_append

theorem power_settle (f : Factors) (target : String → Nat) (keys : List String) (k : String) :
    (f.settle target keys).power k = if k ∈ keys then target k else f.power k := by
  induction keys generalizing f with
  | nil => simp [settle]
  | cons key keys ih =>
    rw [settle, List.foldl_cons, ← settle, ih, power_set]
    by_cases hk : k = key
    · subst hk
      simp
    · simp [hk]

/-- The changes of single powers add up to one change. -/
theorem continues_settle (hnodup : keys.Nodup) (f : Factors) (target : String → Nat) :
    Continues keys f (f.settle target keys) := by
  induction keys generalizing f with
  | nil => exact continues_refl [] f
  | cons key keys ih =>
    obtain ⟨hkey, hnodup⟩ := List.nodup_cons.mp hnodup
    have hset (k : String) (hk : k ≠ key) : (f.set key (target key)).power k = f.power k := by
      rw [power_set, if_neg hk]
    refine (continues_set f key (target key)).trans (ih hnodup _) ?_ ?_ ?_
    · simpa using hkey
    · exact fun k hk => hset k (ne_of_mem_of_not_mem hk hkey)
    · exact fun k hk => (power_settle (f.set key (target key)) target keys k).trans (if_neg hk)

/-- Single powers can be changed one after another where a change of all powers changes only
these. -/
theorem settle_eq (hnodup : keys.Nodup) (hg : Continues keys f g)
    (hpower : ∀ key, g.power key = target key)
    (hother : ∀ key, key ∉ keys → target key = f.power key) : f.settle target keys = g := by
  refine (continues_settle hnodup f target).eq hg fun key => ?_
  rw [power_settle, hpower]
  split
  · rfl
  · rename_i hkey
    exact (hother key hkey).symm

end Settle

end Dataflow.Factors
