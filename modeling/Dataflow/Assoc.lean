namespace Dataflow.Assoc

variable {κ β : Type} [BEq κ]

/-- Give `key` the value `value`. -/
def insert (key : κ) (value : β) : List (κ × β) → List (κ × β)
  | [] => [(key, value)]
  | (k, v) :: rest => if k == key then (key, value) :: rest else (k, v) :: insert key value rest

/-- Read the pairs of a list from the left, later values replacing earlier ones. -/
def ofList (pairs : List (κ × β)) : List (κ × β) :=
  pairs.foldl (fun entries pair => insert pair.1 pair.2 entries) []

/-- The new value is found under its key, and the old ones under all others. -/
theorem lookup_insert [LawfulBEq κ] (key k : κ) (value : β) (entries : List (κ × β)) :
    (insert key value entries).lookup k = if k == key then some value else entries.lookup k := by
  induction entries with
  | nil => cases h : k == key <;> simp [insert, List.lookup_cons, h]
  | cons entry rest ih =>
    obtain ⟨k', v'⟩ := entry
    by_cases h : k' = key
    · subst h
      cases hk : k == k' <;> simp [insert, List.lookup_cons, hk]
    · by_cases hk : k = k'
      · subst hk
        simp [insert, h]
      · simp [insert, List.lookup_cons, h, ih, beq_false_of_ne hk]

/-- The keys change only by a new key at the end. -/
theorem keys_insert [LawfulBEq κ] (key : κ) (value : β) (entries : List (κ × β)) :
    (insert key value entries).map Prod.fst =
      if key ∈ entries.map Prod.fst then entries.map Prod.fst
      else entries.map Prod.fst ++ [key] := by
  induction entries with
  | nil => simp [insert]
  | cons entry rest ih =>
    obtain ⟨k, v⟩ := entry
    by_cases h : k = key
    · simp [insert, h]
    · have hne : ¬ key = k := fun he => h he.symm
      simp only [insert, beq_iff_eq, h, if_false, List.map_cons, ih, List.mem_cons, hne, false_or]
      split <;> rfl

/-- A new key goes to the end. -/
theorem insert_of_notMem [LawfulBEq κ] {key : κ} {entries : List (κ × β)}
    (h : key ∉ entries.map Prod.fst) (value : β) :
    insert key value entries = entries ++ [(key, value)] := by
  induction entries with
  | nil => rfl
  | cons entry rest ih =>
    obtain ⟨hhead, hrest⟩ := List.ne_and_not_mem_of_not_mem_cons h
    rw [insert, if_neg fun heq => hhead (eq_of_beq heq).symm, ih hrest, List.cons_append]

/-- Every pair is the new one or was there before. -/
theorem mem_insert {key : κ} {value : β} {entries : List (κ × β)} {entry : κ × β}
    (h : entry ∈ insert key value entries) : entry = (key, value) ∨ entry ∈ entries := by
  induction entries with
  | nil => simpa [insert] using h
  | cons head rest ih =>
    simp only [insert] at h
    split at h
    · exact (List.mem_cons.mp h).imp_right (List.mem_cons_of_mem _)
    · rcases List.mem_cons.mp h with h | h
      · exact Or.inr (h ▸ List.mem_cons_self)
      · exact (ih h).imp_right (List.mem_cons_of_mem _)

section Lookup

variable [LawfulBEq κ] {entries : List (κ × β)} {key : κ} {value : β}

theorem lookup_eq_none_of_notMem (h : key ∉ entries.map Prod.fst) : entries.lookup key = none := by
  rw [List.lookup_eq_none_iff]
  intro entry hentry
  rw [bne_iff_ne]
  rintro rfl
  exact h (List.mem_map_of_mem hentry)

theorem mem_of_lookup_eq_some (h : entries.lookup key = some value) : (key, value) ∈ entries := by
  obtain ⟨before, after, rfl, -⟩ := List.lookup_eq_some_iff.mp h
  exact List.mem_append_right _ List.mem_cons_self

/-- Under distinct keys every value is found. -/
theorem lookup_eq_some_of_mem (hnodup : (entries.map Prod.fst).Nodup)
    (h : (key, value) ∈ entries) : entries.lookup key = some value := by
  rw [List.lookup_eq_some_iff]
  obtain ⟨before, after, rfl⟩ := List.append_of_mem h
  refine ⟨before, after, rfl, fun entry hentry => ?_⟩
  rw [List.map_append, List.nodup_append] at hnodup
  have hne := hnodup.2.2 entry.1 (List.mem_map_of_mem hentry) key List.mem_cons_self
  exact bne_iff_ne.mpr fun heq => hne heq.symm

end Lookup

section OfList

variable [LawfulBEq κ]

theorem nodup_keys_insert {entries : List (κ × β)} (h : (entries.map Prod.fst).Nodup) (key : κ)
    (value : β) : ((insert key value entries).map Prod.fst).Nodup := by
  rw [keys_insert]
  split
  · exact h
  · rename_i hkey
    rw [List.nodup_append]
    refine ⟨h, by simp, ?_⟩
    rintro a ha b hb rfl
    exact hkey (List.mem_singleton.mp hb ▸ ha)

theorem nodup_keys_ofList (pairs : List (κ × β)) : ((ofList pairs).map Prod.fst).Nodup := by
  have hfold : ∀ entries : List (κ × β), (entries.map Prod.fst).Nodup →
      ((pairs.foldl (fun entries pair => insert pair.1 pair.2 entries) entries).map
        Prod.fst).Nodup := by
    induction pairs with
    | nil => exact fun _ => id
    | cons pair pairs ih => exact fun entries h => ih _ (nodup_keys_insert h pair.1 pair.2)
  exact hfold [] List.nodup_nil

/-- Later values replace earlier ones. -/
theorem lookup_ofList (pairs : List (κ × β)) (key : κ) :
    (ofList pairs).lookup key = pairs.reverse.lookup key := by
  have hfold : ∀ entries : List (κ × β),
      (pairs.foldl (fun entries pair => insert pair.1 pair.2 entries) entries).lookup key =
        (pairs.reverse ++ entries).lookup key := by
    induction pairs with
    | nil => exact fun _ => rfl
    | cons pair pairs ih =>
      intro entries
      rw [List.foldl_cons, ih, List.reverse_cons, List.append_assoc, List.lookup_append,
        List.lookup_append, lookup_insert, List.singleton_append, List.lookup_cons]
      cases key == pair.1 <;> rfl
  rw [ofList, hfold, List.append_nil]

end OfList

end Dataflow.Assoc
