import Dataflow.Arithmetic.PrimeFactors
import Dataflow.Assoc
import Dataflow.Text.Numeral
import Dataflow.Text.Order

namespace Dataflow

open Text

/-- Divisors with their powers, in the order in which they were added. A numeral is a number, any
other text a parameter. The order decides only which divisor a failed division names. -/
structure Factors where
  entries : List (String × Nat)
  nodup_keys : (entries.map Prod.fst).Nodup
  pos_of_mem : ∀ entry ∈ entries, 0 < entry.2

namespace Factors

/-- No divisors. -/
def empty : Factors :=
  ⟨[], by simp, by simp⟩

/-- How often a divisor occurs. -/
def power (f : Factors) (key : String) : Nat :=
  (f.entries.lookup key).getD 0

/-- Whether a divisor occurs. -/
def contains (f : Factors) (key : String) : Bool :=
  (f.entries.lookup key).isSome

/-- The divisors that occur. -/
def keys (f : Factors) : List String :=
  f.entries.map Prod.fst

/-- The entries in the order of their divisors. -/
def sortedEntries (f : Factors) : List (String × Nat) :=
  f.entries.mergeSort fun a b => textLE a.1 b.1

/-- Multisets are compared by their powers, whatever the order of the entries. -/
instance : BEq Factors where
  beq f g :=
    f.entries.all (fun entry => g.power entry.1 == entry.2) &&
      g.entries.all (fun entry => f.power entry.1 == entry.2)

/-- How a multiset is shown. -/
def render (f : Factors) : Except Failure String := do
  let entries ← f.sortedEntries.mapM fun entry => do
    return entry.1 ++ "^" ++ (← Numeral.write entry.2)
  return "DivisorSet(" ++ ", ".intercalate entries ++ ")"

/-- A divisor occurs when it is one of the keys. -/
theorem contains_iff {f : Factors} {key : String} : f.contains key = true ↔ key ∈ f.keys := by
  rw [contains, List.lookup_isSome_iff, keys]
  constructor
  · rintro ⟨entry, hmem, hkey⟩
    exact eq_of_beq hkey ▸ List.mem_map_of_mem hmem
  · intro h
    obtain ⟨entry, hmem, hkey⟩ := List.mem_map.mp h
    exact ⟨entry, hmem, beq_iff_eq.mpr hkey.symm⟩

theorem power_eq_zero_of_notMem {f : Factors} {key : String} (h : key ∉ f.keys) :
    f.power key = 0 := by
  rw [power, Assoc.lookup_eq_none_of_notMem h, Option.getD_none]

theorem power_of_mem {f : Factors} {entry : String × Nat} (h : entry ∈ f.entries) :
    f.power entry.1 = entry.2 := by
  rw [power, Assoc.lookup_eq_some_of_mem f.nodup_keys h, Option.getD_some]

/-- A divisor occurs when its power is positive. -/
theorem power_pos_iff {f : Factors} {key : String} : 0 < f.power key ↔ key ∈ f.keys := by
  refine ⟨fun h => Decidable.byContradiction fun hkey => ?_, fun h => ?_⟩
  · rw [power_eq_zero_of_notMem hkey] at h
    exact Nat.lt_irrefl 0 h
  · obtain ⟨entry, hentry, rfl⟩ := List.mem_map.mp h
    rw [power_of_mem hentry]
    exact f.pos_of_mem entry hentry

@[simp]
theorem power_empty (key : String) : empty.power key = 0 := rfl

/-- Equality of multisets is agreement of all powers. -/
theorem beq_iff {f g : Factors} : (f == g) = true ↔ ∀ key, f.power key = g.power key := by
  have hbeq : (f == g) = (f.entries.all (fun entry => g.power entry.1 == entry.2) &&
      g.entries.all (fun entry => f.power entry.1 == entry.2)) := rfl
  rw [hbeq, Bool.and_eq_true, List.all_eq_true, List.all_eq_true]
  constructor
  · rintro ⟨hf, hg⟩ key
    by_cases hkey : key ∈ f.keys
    · obtain ⟨entry, hentry, rfl⟩ := List.mem_map.mp hkey
      rw [power_of_mem hentry, eq_of_beq (hf entry hentry)]
    · by_cases hkey' : key ∈ g.keys
      · obtain ⟨entry, hentry, rfl⟩ := List.mem_map.mp hkey'
        rw [power_of_mem hentry, eq_of_beq (hg entry hentry)]
      · rw [power_eq_zero_of_notMem hkey, power_eq_zero_of_notMem hkey']
  · intro h
    exact ⟨fun entry hentry => by rw [← h, power_of_mem hentry, beq_self_eq_true],
      fun entry hentry => by rw [h, power_of_mem hentry, beq_self_eq_true]⟩

section Reshape

/-- New powers for the entries; those that become zero are dropped. -/
def reshapeEntries (change : String → Nat → Nat) : List (String × Nat) → List (String × Nat)
  | [] => []
  | (key, power) :: rest =>
    if change key power = 0 then reshapeEntries change rest
    else (key, change key power) :: reshapeEntries change rest

variable (change : String → Nat → Nat)

private theorem keys_reshapeEntries_sublist (entries : List (String × Nat)) :
    ((reshapeEntries change entries).map Prod.fst).Sublist (entries.map Prod.fst) := by
  induction entries with
  | nil => exact List.Sublist.slnil
  | cons entry rest ih =>
    rw [reshapeEntries]
    split
    · exact ih.trans (List.sublist_cons_self ..)
    · exact ih.cons_cons _

private theorem pos_of_mem_reshapeEntries {entries : List (String × Nat)} {entry : String × Nat}
    (h : entry ∈ reshapeEntries change entries) : 0 < entry.2 := by
  induction entries with
  | nil => simp [reshapeEntries] at h
  | cons head rest ih =>
    rw [reshapeEntries] at h
    split at h
    · exact ih h
    · rename_i hne
      rcases List.mem_cons.mp h with rfl | h
      · exact Nat.pos_of_ne_zero hne
      · exact ih h

private theorem mem_reshapeEntries {entries : List (String × Nat)} {entry : String × Nat}
    (h : entry ∈ reshapeEntries change entries) :
    ∃ p, (entry.1, p) ∈ entries ∧ change entry.1 p = entry.2 := by
  induction entries with
  | nil => simp [reshapeEntries] at h
  | cons head rest ih =>
    rw [reshapeEntries] at h
    split at h
    · obtain ⟨p, hp, heq⟩ := ih h
      exact ⟨p, List.mem_cons_of_mem _ hp, heq⟩
    · rcases List.mem_cons.mp h with rfl | h
      · exact ⟨_, List.mem_cons_self, rfl⟩
      · obtain ⟨p, hp, heq⟩ := ih h
        exact ⟨p, List.mem_cons_of_mem _ hp, heq⟩

/-- Under a key that stood there, the changed power is found unless it is zero. -/
theorem lookup_reshapeEntries {entries : List (String × Nat)}
    (hnodup : (entries.map Prod.fst).Nodup) (key : String) :
    (reshapeEntries change entries).lookup key =
      (entries.lookup key).bind fun p => if change key p = 0 then none else some (change key p) := by
  induction entries with
  | nil => rfl
  | cons entry rest ih =>
    obtain ⟨k, p⟩ := entry
    simp only [List.map_cons, List.nodup_cons] at hnodup
    have ih := ih hnodup.2
    rw [reshapeEntries]
    by_cases hk : key = k
    · subst hk
      rw [Assoc.lookup_eq_none_of_notMem hnodup.1] at ih
      by_cases hzero : change key p = 0
      · simpa [List.lookup_cons, hzero] using ih
      · simp [hzero]
    · have hb : (key == k) = false := beq_false_of_ne hk
      split <;> simpa [List.lookup_cons, hb] using ih

/-- Change every power; divisors whose power becomes zero are dropped. -/
def reshape (f : Factors) : Factors where
  entries := reshapeEntries change f.entries
  nodup_keys := f.nodup_keys.sublist (keys_reshapeEntries_sublist change f.entries)
  pos_of_mem := fun _ h => pos_of_mem_reshapeEntries change h

/-- A change that leaves absent divisors absent acts on every power. -/
theorem power_reshape (change : String → Nat → Nat) (hzero : ∀ key, change key 0 = 0)
    (f : Factors) (key : String) : (f.reshape change).power key = change key (f.power key) := by
  have h : (f.reshape change).entries.lookup key = _ :=
    lookup_reshapeEntries change f.nodup_keys key
  rw [power, h, power]
  cases f.entries.lookup key with
  | none => exact (hzero key).symm
  | some p => by_cases hp : change key p = 0 <;> simp [hp]

end Reshape

section Set

/-- Drop a divisor. -/
def erase (f : Factors) (key : String) : Factors :=
  f.reshape fun k p => if k = key then 0 else p

/-- Give a divisor a power. A divisor that is there keeps its place, a new one goes to the end, and
power zero drops it. -/
def set (f : Factors) (key : String) (power : Nat) : Factors :=
  if h : power = 0 then f.erase key
  else
    { entries := Assoc.insert key power f.entries
      nodup_keys := Assoc.nodup_keys_insert f.nodup_keys key power
      pos_of_mem := by
        intro entry hentry
        rcases Assoc.mem_insert hentry with rfl | hentry
        · exact Nat.pos_of_ne_zero h
        · exact f.pos_of_mem entry hentry }

@[simp]
theorem power_erase (f : Factors) (key k : String) :
    (f.erase key).power k = if k = key then 0 else f.power k :=
  power_reshape (fun k p => if k = key then 0 else p) (fun _ => ite_self 0) f k

@[simp]
theorem power_set (f : Factors) (key k : String) (p : Nat) :
    (f.set key p).power k = if k = key then p else f.power k := by
  unfold set
  split
  · rename_i h
    rw [power_erase, h]
  · simp only [power, Assoc.lookup_insert, beq_iff_eq]
    split <;> rfl

/-- Give a divisor a power, which must not be negative. -/
def setPower (f : Factors) (key : String) (power : Int) : Except Failure Factors :=
  if power < 0 then .error (Numeral.telling power.natAbs (.negativePower key power))
  else .ok (f.set key power.toNat)

/-- Raise or lower the power of a divisor. -/
def increment (f : Factors) (key : String) (delta : Int) : Except Failure Factors :=
  f.setPower key (f.power key + delta)

/-- The multiset with the given powers. Of several powers for one divisor the last one counts, in
the first one's place. -/
def ofPairs (pairs : List (String × Int)) : Except Failure Factors :=
  (Assoc.ofList pairs).foldlM (fun f pair => f.setPower pair.1 pair.2) empty

/-- The prime factors of a positive number, in ascending order. -/
def ofNumber (n : Int) : Except Failure Factors :=
  if n < 1 then .error (Numeral.telling n.natAbs (.unfactorable n))
  else
    (Arithmetic.primeFactors n.toNat).foldlM (fun f p => do
      let key ← Numeral.write p
      return f.set key (f.power key + 1)) empty

end Set

section Combine

/-- Both multisets together: powers are added. -/
def union (f g : Factors) : Factors where
  entries :=
    (f.reshape fun key p => p + g.power key).entries ++
      (g.reshape fun key p => if f.contains key then 0 else p).entries
  nodup_keys := by
    rw [List.map_append, List.nodup_append]
    refine ⟨Factors.nodup_keys _, Factors.nodup_keys _, fun a ha b hb => ?_⟩
    rintro rfl
    have hf : a ∈ f.keys := (keys_reshapeEntries_sublist _ f.entries).subset ha
    obtain ⟨entry, hentry, rfl⟩ := List.mem_map.mp hb
    have hpos := Factors.pos_of_mem _ entry hentry
    obtain ⟨p, -, hp⟩ := mem_reshapeEntries _ hentry
    rw [contains_iff.mpr hf, if_pos rfl] at hp
    exact Nat.lt_irrefl 0 (hp ▸ hpos)
  pos_of_mem := by
    intro entry h
    rcases List.mem_append.mp h with h | h
    · exact Factors.pos_of_mem _ entry h
    · exact Factors.pos_of_mem _ entry h

/-- What both multisets share: the smaller of the two powers. -/
def inter (f g : Factors) : Factors :=
  f.reshape fun key p => min p (g.power key)

/-- What is left of `f` without `g`; nothing falls below zero. -/
def diff (f g : Factors) : Factors :=
  f.reshape fun key p => p - g.power key

/-- The first entry of `g` that `f` does not hold as often. -/
def lacking? (f g : Factors) : Option (String × Nat) :=
  g.entries.find? fun entry => Nat.blt (f.power entry.1) entry.2

/-- Take `g` away from `f`, which must hold all of it. -/
def diff? (f g : Factors) : Except Failure Factors :=
  match f.lacking? g with
  | some (key, wanted) => .error (Numeral.telling wanted (.missingPower key (f.power key) wanted))
  | none => .ok (f.diff g)

@[simp]
theorem power_inter (f g : Factors) (key : String) :
    (f.inter g).power key = min (f.power key) (g.power key) :=
  power_reshape (fun key p => min p (g.power key)) (fun _ => Nat.zero_min _) f key

@[simp]
theorem power_diff (f g : Factors) (key : String) :
    (f.diff g).power key = f.power key - g.power key :=
  power_reshape (fun key p => p - g.power key) (fun _ => Nat.zero_sub _) f key

@[simp]
theorem power_union (f g : Factors) (key : String) :
    (f.union g).power key = f.power key + g.power key := by
  have happend : (f.union g).entries.lookup key = _ := List.lookup_append
  have hf : (f.reshape fun key p => p + g.power key).entries.lookup key = _ :=
    lookup_reshapeEntries _ f.nodup_keys key
  have hg := power_reshape (fun key p => if f.contains key then 0 else p)
    (fun _ => ite_self 0) g key
  rw [power, happend]
  cases h : f.entries.lookup key with
  | none =>
    have hcontains : f.contains key = false := by rw [contains, h, Option.isSome_none]
    rw [h, Option.bind_none] at hf
    rw [hf, Option.none_or, ← power, hg, hcontains, power, power, h]
    simp
  | some p =>
    have hpos : 0 < f.power key := power_pos_iff.mpr (contains_iff.mp (by rw [contains, h]; rfl))
    have hp : f.power key = p := by rw [power, h, Option.getD_some]
    rw [h, Option.bind_some, if_neg (by omega)] at hf
    rw [hf, Option.some_or, Option.getD_some, hp]

end Combine

end Factors

end Dataflow
