import Dataflow.Proofs.Workspace
import Dataflow.Protocol.Users

namespace Dataflow

open Dataflow.Action

namespace Graph

/-- The parameters of the firing count of an actor and of the rates at its links. -/
def parametersAt (g : Graph) (table : Repetitions) (a : Actor) : List String :=
  (table.count a).parameters ++ (g.allLinks a).flatMap fun link => g.rateParameters link.near.port

/-- Whether an actor uses a parameter: its firing count or a rate at one of its links depends on
it. -/
def uses (g : Graph) (table : Repetitions) (parameter : String) (a : Actor) : Bool :=
  (g.parametersAt table a).contains parameter

theorem uses_iff {g : Graph} {table : Repetitions} {parameter : String} {a : Actor} :
    g.uses table parameter a = true ↔ parameter ∈ (table.count a).parameters ∨
      ∃ link ∈ g.allLinks a, ∃ rate,
        g.readRate link.near.port = .ok rate ∧ parameter ∈ rate.parameters := by
  rw [uses, List.contains_iff_mem, parametersAt, List.mem_append, List.mem_flatMap]
  simp only [mem_rateParameters_iff]

end Graph

namespace Uses

/-- The two maps agree: an actor is listed under a parameter if and only if the parameter is listed
under the actor. -/
structure InStep (u : Uses) : Prop where
  nodup_parameters : (u.byParameter.map Prod.fst).Nodup
  ne_nil : ∀ entry ∈ u.byParameter, entry.2 ≠ []
  id_eq : ∀ entry ∈ u.byParameter, ∀ user ∈ entry.2, user.1 = user.2.id
  mem_iff : ∀ id parameter,
    parameter ∈ u.parametersOf id ↔ id ∈ (u.usersOf parameter).map Prod.fst

variable {u : Uses} {a : Actor} {parameter : String}

private theorem InStep.empty : Uses.empty.InStep where
  nodup_parameters := List.nodup_nil
  ne_nil := by simp [Uses.empty]
  id_eq := by simp [Uses.empty]
  mem_iff := by simp [Uses.empty, parametersOf, usersOf]

private theorem parametersOf_enroll (id other : Handle) :
    (u.enroll id).parametersOf other = u.parametersOf other := by
  rw [parametersOf, enroll, Assoc.lookup_insert]
  split
  · rename_i h
    rw [eq_of_beq h]
    rfl
  · rfl

private theorem InStep.enroll (h : u.InStep) (id : Handle) : (u.enroll id).InStep :=
  { h with
    mem_iff := fun other parameter => by
      rw [parametersOf_enroll]
      exact h.mem_iff other parameter }

private theorem parametersOf_add (id : Handle) :
    (u.add a parameter).parametersOf id =
      if id = a.id ∧ parameter ∉ u.parametersOf id then u.parametersOf id ++ [parameter]
      else u.parametersOf id := by
  rw [parametersOf, add, Assoc.lookup_insert]
  by_cases hid : id = a.id
  · subst hid
    by_cases hmem : parameter ∈ u.parametersOf a.id <;> simp [hmem]
  · simp [hid, parametersOf]

private theorem usersOf_add (q : String) :
    (u.add a parameter).usersOf q =
      if q = parameter then Assoc.insert a.id a (u.usersOf q) else u.usersOf q := by
  rw [usersOf, add, Assoc.lookup_insert]
  by_cases hq : q = parameter
  · subst hq
    simp
  · simp [hq, usersOf]

/-- The users that are looked up stand in the table. -/
theorem exists_entry_of_mem_usersOf {user : Handle × Actor} (h : user ∈ u.usersOf parameter) :
    ∃ entry ∈ u.byParameter, user ∈ entry.2 := by
  unfold usersOf at h
  cases hlookup : u.byParameter.lookup parameter with
  | none => simp [hlookup] at h
  | some users =>
    rw [hlookup, Option.getD_some] at h
    exact ⟨_, Assoc.mem_of_lookup_eq_some hlookup, h⟩

private theorem mem_keys_insert {key other : Handle} {value : Actor}
    {entries : List (Handle × Actor)} : other ∈ (Assoc.insert key value entries).map Prod.fst ↔
      other ∈ entries.map Prod.fst ∨ other = key := by
  rw [Assoc.keys_insert]
  by_cases hkey : key ∈ entries.map Prod.fst
  · rw [if_pos hkey]
    exact ⟨.inl, fun h => h.elim id fun h => h ▸ hkey⟩
  · rw [if_neg hkey, List.mem_append, List.mem_singleton]

private theorem InStep.add (h : u.InStep) (a : Actor) (parameter : String) :
    (u.add a parameter).InStep where
  nodup_parameters := Assoc.nodup_keys_insert h.nodup_parameters _ _
  ne_nil := by
    intro entry hentry
    obtain rfl | hentry := Assoc.mem_insert hentry
    · intro hnil
      have hmem : a.id ∈ (Assoc.insert a.id a (u.usersOf parameter)).map Prod.fst :=
        mem_keys_insert.mpr (.inr rfl)
      rw [show Assoc.insert a.id a (u.usersOf parameter) = [] from hnil] at hmem
      cases hmem
    · exact h.ne_nil entry hentry
  id_eq := by
    intro entry hentry user huser
    obtain rfl | hentry := Assoc.mem_insert hentry
    · obtain rfl | huser := Assoc.mem_insert huser
      · rfl
      · obtain ⟨old, hold, huser⟩ := exists_entry_of_mem_usersOf huser
        exact h.id_eq old hold user huser
    · exact h.id_eq entry hentry user huser
  mem_iff := by
    intro id q
    rw [parametersOf_add, usersOf_add]
    by_cases hq : q = parameter
    · subst hq
      rw [if_pos rfl, mem_keys_insert, ← h.mem_iff]
      by_cases hid : id = a.id
      · by_cases hmem : q ∈ u.parametersOf id <;> simp [hid, hid ▸ hmem]
      · simp [hid]
    · rw [if_neg hq, ← h.mem_iff]
      split
      · simp [hq]
      · rfl

private theorem InStep.addUser (h : u.InStep) (a : Actor) (parameters : List String) :
    (u.addUser a parameters).InStep :=
  List.foldlRecOn parameters _ (h.enroll a.id) fun _ h parameter _ => h.add a parameter

/-- The users are the given ones and, of the parameters `noted`, one more actor. -/
def Are (u : Uses) (before : String → List Actor) (a : Actor) (noted : List String) : Prop :=
  ∀ parameter, u.usersOf parameter =
    (before parameter ++ if parameter ∈ noted then [a] else []).map fun user => (user.id, user)

private theorem insert_of_before {before : List Actor} {rest : List (Handle × Actor)}
    (hnew : ∀ user ∈ before, user.id ≠ a.id) :
    Assoc.insert a.id a (before.map (fun user => (user.id, user)) ++ rest) =
      before.map (fun user => (user.id, user)) ++ Assoc.insert a.id a rest := by
  induction before with
  | nil => rfl
  | cons user before ih =>
    obtain ⟨huser, hnew⟩ := List.forall_mem_cons.mp hnew
    simp [Assoc.insert, huser, ih hnew]

private theorem Are.add {before : String → List Actor} {noted : List String}
    (hnew : ∀ parameter, ∀ user ∈ before parameter, user.id ≠ a.id) (h : u.Are before a noted)
    (parameter : String) : (u.add a parameter).Are before a (noted ++ [parameter]) := by
  intro q
  rw [usersOf_add, h q]
  by_cases hq : q = parameter
  · subst hq
    rw [if_pos rfl, List.map_append, insert_of_before (hnew q)]
    by_cases hnoted : q ∈ noted <;> simp [hnoted, Assoc.insert]
  · simp [hq]

private theorem Are.addUser {before : String → List Actor} {noted : List String}
    (hnew : ∀ parameter, ∀ user ∈ before parameter, user.id ≠ a.id) (h : u.Are before a noted)
    (parameters : List String) :
    (u.addUser a parameters).Are before a (noted ++ parameters) := by
  have hadd : ∀ (u : Uses) (noted : List String), u.Are before a noted →
      (parameters.foldl (fun u parameter => u.add a parameter) u).Are before a
        (noted ++ parameters) := by
    induction parameters with
    | nil => exact fun u noted h => by simpa using h
    | cons parameter parameters ih =>
      intro u noted h
      simpa using ih _ _ (h.add hnew parameter)
  exact hadd (u.enroll a.id) noted h

end Uses

namespace Protocol

variable {p : Protocol} {a : Actor} {parameter : String}

/-- What was noted about period actors is the same. -/
structure SameSources (p p' : Protocol) : Prop where
  sources_eq : p'.sources = p.sources
  feeders_eq : p'.feeders = p.feeders
  modified_eq : p'.modified = p.modified
  connected_eq : p'.connected = p.connected

theorem SameSources.refl (p : Protocol) : p.SameSources p :=
  ⟨rfl, rfl, rfl, rfl⟩

theorem SameSources.addUser {p' : Protocol} (h : p.SameSources p') (a : Actor)
    (parameters : List String) : p.SameSources (p'.addUser a parameters) :=
  { h with }

/-- The two maps agree on an actor and a parameter. -/
theorem mem_usedBy_iff (h : p.uses.InStep) :
    parameter ∈ p.usedBy a ↔ ∃ user ∈ p.usersOf parameter, user.id = a.id := by
  rw [usedBy, h.mem_iff, usersOf]
  simp only [List.mem_map, exists_exists_and_eq_and]
  refine exists_congr fun user => and_congr_right fun huser => ?_
  obtain ⟨entry, hentry, hmem⟩ := Uses.exists_entry_of_mem_usersOf huser
  rw [h.id_eq entry hentry user hmem]

/-- A parameter is in the table when it has a user. -/
theorem mem_usedParameters_iff (h : p.uses.InStep) :
    parameter ∈ p.usedParameters ↔ p.usersOf parameter ≠ [] := by
  rw [usersOf, ne_eq, List.map_eq_nil_iff, usedParameters, Uses.usersOf]
  cases hlookup : p.uses.byParameter.lookup parameter with
  | none =>
    refine iff_of_false (fun hmem => ?_) (by simp)
    obtain ⟨entry, hentry, rfl⟩ := List.mem_map.mp hmem
    simpa using List.lookup_eq_none_iff.mp hlookup entry hentry
  | some users =>
    have hentry := Assoc.mem_of_lookup_eq_some hlookup
    exact iff_of_true (List.mem_map_of_mem hentry) (h.ne_nil _ hentry)

end Protocol

namespace Workspace

/-- How a workspace stands when the users among the actors `done` were noted, and of the actor `a`
the parameters `noted`. -/
structure Noting (g : Graph) (p : Protocol) (before : String → List Actor) (a : Actor)
    (noted : List String) (w : Workspace) : Prop where
  graph_eq : w.graph = g
  rates_agree : w.rates.Agrees g
  same : p.SameSources w.protocol
  in_step : w.protocol.uses.InStep
  users : w.protocol.uses.Are before a noted

/-- How a workspace stands when the users among the actors `done` were noted. -/
structure Used (g : Graph) (p : Protocol) (table : Repetitions) (done : List Actor)
    (w : Workspace) : Prop where
  graph_eq : w.graph = g
  rates_agree : w.rates.Agrees g
  same : p.SameSources w.protocol
  in_step : w.protocol.uses.InStep
  users : ∀ parameter, w.protocol.uses.usersOf parameter =
    (done.filter (g.uses table parameter)).map fun user => (user.id, user)

variable {g : Graph} {p : Protocol} {table : Repetitions} {w w' : Workspace}

private theorem noteUses_noting {before : String → List Actor} {a : Actor} {noted : List String}
    {m : Monomial} (hnew : ∀ parameter, ∀ user ∈ before parameter, user.id ≠ a.id)
    (hw : Noting g p before a noted w) (h : noteUses a m w = .ok () w') :
    Noting g p before a (noted ++ m.parameters) w' := by
  cases h
  exact ⟨hw.graph_eq, hw.rates_agree, hw.same.addUser a m.parameters,
    hw.in_step.addUser a m.parameters, hw.users.addUser hnew m.parameters⟩

private theorem identifyUsesOf_used {done : List Actor} {a : Actor}
    (hnew : ∀ user ∈ done, user.id ≠ a.id)
    (hw : Used g p table done w) (h : identifyUsesOf table a w = .ok () w') :
    Used g p table (done ++ [a]) w' := by
  have hbefore : ∀ parameter, ∀ user ∈ done.filter (g.uses table parameter), user.id ≠ a.id :=
    fun parameter user huser => hnew user (List.mem_of_mem_filter huser)
  have hstart : Noting g p (fun parameter => done.filter (g.uses table parameter)) a [] w :=
    ⟨hw.graph_eq, hw.rates_agree, hw.same, hw.in_step, fun parameter => by simp [hw.users]⟩
  obtain ⟨count, _, hcount, h⟩ := bind_eq_ok_iff.mp h
  obtain ⟨hget, rfl⟩ := lift_eq_ok_iff.mp hcount
  obtain rfl := Repetitions.count_of_get_eq_ok hget
  obtain ⟨_, w₁, hnote, h⟩ := bind_eq_ok_iff.mp h
  have hnoted := noteUses_noting hbefore hstart hnote
  obtain ⟨_, _, hget, h⟩ := bind_eq_ok_iff.mp h
  cases hget
  rw [hnoted.graph_eq] at h
  have hlinks := forM_keeps (I := fun links w => Noting g p _ a
    ((table.count a).parameters ++ links.flatMap fun link => g.rateParameters link.near.port) w)
    (fun links link later w₁ w₂ _ hw₁ hstep => ?_) (List.nil_append _) (by simpa using hnoted) h
  · refine ⟨hlinks.graph_eq, hlinks.rates_agree, hlinks.same, hlinks.in_step,
      fun parameter => ?_⟩
    rw [hlinks.users parameter, List.filter_append, ← Graph.parametersAt]
    by_cases huses : parameter ∈ g.parametersAt table a <;> simp [Graph.uses, huses]
  · obtain ⟨rate, w₃, hread, hstep⟩ := bind_eq_ok_iff.mp hstep
    obtain ⟨cache, hrate, rfl⟩ := within_eq_ok_iff.mp hread
    obtain ⟨hrate, hcache⟩ := RateCache.rate_eq_ok hw₁.rates_agree hrate
    have hread₁ : Noting g p _ a _ { w₁ with rates := cache } :=
      ⟨hw₁.graph_eq, hcache, hw₁.same, hw₁.in_step, hw₁.users⟩
    have hnoted := noteUses_noting hbefore hread₁ hstep
    have hparameters : g.rateParameters link.near.port = rate.parameters := by
      rw [Graph.rateParameters, hrate]
    rw [List.flatMap_append, List.flatMap_singleton, ← List.append_assoc, hparameters]
    exact hnoted

theorem identifyUsers_used (hg : w.graph.WellFormed) (hw : w.rates.Agrees w.graph)
    (huses : w.protocol.uses = .empty) (h : identifyUsers table w = .ok () w') :
    Used w.graph w.protocol table w.graph.actors w' := by
  obtain ⟨_, _, hget, h⟩ := bind_eq_ok_iff.mp h
  cases hget
  have hstart : Used w.graph w.protocol table [] w :=
    ⟨rfl, hw, .refl _, huses ▸ .empty, fun parameter => by
      simp [huses, Uses.usersOf, Uses.empty]⟩
  refine forM_keeps (fun done a later w₁ w₂ hactors hw₁ hstep => ?_) (List.nil_append _) hstart h
  refine identifyUsesOf_used (fun user huser hid => ?_) hw₁ hstep
  have hnodup := hg.nodup_actor_ids
  rw [← hactors, List.map_append, List.nodup_append] at hnodup
  exact hnodup.2.2 _ (List.mem_map_of_mem huser) _ List.mem_cons_self hid

end Workspace

end Dataflow
