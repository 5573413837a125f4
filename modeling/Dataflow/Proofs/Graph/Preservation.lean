import Dataflow.Proofs.Graph.WellFormed

namespace Dataflow.Graph

namespace WellFormed

variable {g : Graph}

private theorem withHandle (hg : g.WellFormed) :
    { g with nextHandle := g.nextHandle + 1 }.WellFormed :=
  { hg with
    issued := hg.issued.succ
    joins := fun c hc direction =>
      (hg.joins c hc direction).mono (List.Subset.refl _) (List.Subset.refl _) }

private theorem withActor (hg : g.WellFormed) {a : Actor} (hid : a.id = g.nextHandle)
    (hname : g.hasActor a.name = false) :
    { g with
      actors := g.actors ++ [a]
      types := if g.types.contains a.type then g.types else g.types ++ [a.type]
      nextHandle := g.nextHandle + 1 }.WellFormed where
  issued := by
    have h := hg.issued
    simp only [handles, List.append_assoc] at h
    simpa [handles, List.append_assoc, hid] using h.insert
  nodup_names := by
    rw [List.map_append, List.nodup_append]
    refine ⟨hg.nodup_names, List.nodup_singleton _, ?_⟩
    intro old hold new hnew
    obtain ⟨b, hb, rfl⟩ := List.mem_map.mp hold
    rintro rfl
    have hany := List.any_eq_false.mp hname b hb
    simp only [List.map_cons, List.map_nil, List.mem_singleton] at hnew
    simp [hnew] at hany
  nodup_ports := hg.nodup_ports
  nodup_parameters := hg.nodup_parameters
  types_known := by
    intro b hb
    rcases List.mem_append.mp hb with hb | hb
    · have hknown := hg.types_known b hb
      split <;> simp [hknown]
    · rw [List.mem_singleton.mp hb]
      split
      · rename_i hcontains
        exact List.contains_iff_mem.mp hcontains
      · simp
  nodup_rates := hg.nodup_rates
  rates_at_ports := hg.rates_at_ports
  linked_eq := hg.linked_eq
  joins := fun c hc direction =>
    (hg.joins c hc direction).mono (List.subset_append_left _ _) (List.Subset.refl _)

private theorem withPort (hg : g.WellFormed) {p : Port} (hid : p.id = g.nextHandle)
    (hname : g.hasPort p.type p.name = false) (rate : Option String) :
    { g with
      ports := g.ports ++ [p]
      rates := g.rates ++ rate.toList.map (p.id, ·)
      nextHandle := g.nextHandle + 1 }.WellFormed where
  issued := by
    have h := hg.issued
    simp only [handles] at h
    simpa [handles, List.append_assoc, hid] using h.insert
  nodup_names := hg.nodup_names
  nodup_ports := by
    rw [List.map_append, List.nodup_append]
    refine ⟨hg.nodup_ports, List.nodup_singleton _, ?_⟩
    intro old hold new hnew
    obtain ⟨q, hq, rfl⟩ := List.mem_map.mp hold
    rintro rfl
    have hany := List.any_eq_false.mp hname q hq
    simp only [List.map_cons, List.map_nil, List.mem_singleton, Prod.mk.injEq] at hnew
    simp [hnew.1, hnew.2] at hany
  nodup_parameters := hg.nodup_parameters
  types_known := hg.types_known
  nodup_rates := by
    have hnew : p.id ∉ g.rates.map Prod.fst := by
      intro hmem
      obtain ⟨entry, hentry, heq⟩ := List.mem_map.mp hmem
      have hlt := hg.port_id_lt (hg.rates_at_ports entry hentry)
      rw [heq, hid] at hlt
      exact Nat.lt_irrefl _ hlt
    cases rate with
    | none => simpa using hg.nodup_rates
    | some text =>
      rw [List.map_append, List.nodup_append]
      refine ⟨hg.nodup_rates, by simp, ?_⟩
      intro old hold new hmem
      rintro rfl
      simp only [Option.toList_some, List.map_cons, List.map_nil, List.mem_singleton] at hmem
      exact hnew (hmem ▸ hold)
  rates_at_ports := by
    intro entry hentry
    rw [List.map_append]
    rcases List.mem_append.mp hentry with hentry | hentry
    · exact List.mem_append_left _ (hg.rates_at_ports entry hentry)
    · obtain ⟨text, -, rfl⟩ := List.mem_map.mp hentry
      exact List.mem_append_right _ (by simp)
  linked_eq := hg.linked_eq
  joins := fun c hc direction =>
    (hg.joins c hc direction).mono (List.Subset.refl _) (List.subset_append_left _ _)

private theorem withRate (hg : g.WellFormed) {p : Port} (hp : p ∈ g.ports) (rate : String)
    (hnone : g.rateText? p = none) :
    { g with rates := g.rates ++ [(p.id, rate)] }.WellFormed :=
  { hg with
    issued := hg.issued
    nodup_rates := by
      rw [List.map_append, List.nodup_append]
      refine ⟨hg.nodup_rates, List.nodup_singleton _, ?_⟩
      intro old hold new hnew
      obtain ⟨entry, hentry, rfl⟩ := List.mem_map.mp hold
      rintro rfl
      have hmiss := List.lookup_eq_none_iff.mp hnone entry hentry
      simp only [List.map_cons, List.map_nil, List.mem_singleton] at hnew
      simp [hnew] at hmiss
    rates_at_ports := by
      intro entry hentry
      rcases List.mem_append.mp hentry with hentry | hentry
      · exact hg.rates_at_ports entry hentry
      · rw [List.mem_singleton.mp hentry]
        exact List.mem_map_of_mem hp
    joins := fun c hc direction => (hg.joins c hc direction).mono (List.Subset.refl _)
      (List.Subset.refl _) }

private theorem withChannel (hg : g.WellFormed) {c : Channel} (hid : c.id = g.nextHandle)
    (hsource : c.source.FitsIn g .output) (htarget : c.target.FitsIn g .input) :
    { g with
      channels := g.channels ++ [c]
      linked := g.linked ++ [c]
      nextHandle := g.nextHandle + 1 }.WellFormed where
  issued := by
    have h := hg.issued
    rw [← List.append_nil g.handles] at h
    simpa [handles, List.append_assoc, hid] using h.insert
  nodup_names := hg.nodup_names
  nodup_ports := hg.nodup_ports
  nodup_parameters := hg.nodup_parameters
  types_known := hg.types_known
  nodup_rates := hg.nodup_rates
  rates_at_ports := hg.rates_at_ports
  linked_eq := by simp [hg.linked_eq]
  joins := by
    intro d hd direction
    have hfits : (d.endpoint direction).FitsIn g direction := by
      rcases List.mem_append.mp hd with hd | hd
      · exact hg.joins d hd direction
      · rw [List.mem_singleton.mp hd]
        cases direction with
        | output => exact hsource
        | input => exact htarget
    exact hfits.mono (List.Subset.refl _) (List.Subset.refl _)

private theorem withModifier (hg : g.WellFormed) {m : Modifier}
    (hnone : g.modifiers.find? (·.parameter == m.parameter) = none) :
    { g with modifiers := g.modifiers ++ [m] }.WellFormed :=
  { hg with
    issued := hg.issued
    nodup_parameters := by
      rw [List.map_append, List.nodup_append]
      refine ⟨hg.nodup_parameters, List.nodup_singleton _, ?_⟩
      intro old hold new hnew
      obtain ⟨present, hpresent, rfl⟩ := List.mem_map.mp hold
      rintro rfl
      have hmiss := List.find?_eq_none.mp hnone present hpresent
      simp only [List.map_cons, List.map_nil, List.mem_singleton] at hnew
      simp [hnew] at hmiss
    joins := fun c hc direction => (hg.joins c hc direction).mono (List.Subset.refl _)
      (List.Subset.refl _) }

/-- Channels may go, and with them an actor at which no other channel ends. -/
theorem withoutActors (hg : g.WellFormed) (stays : Actor → Bool) (keeps : Channel → Bool)
    (hends : ∀ c ∈ g.channels, keeps c → ∀ direction, stays (c.endpoint direction).actor) :
    { g with
      actors := g.actors.filter stays
      channels := g.channels.filter keeps
      linked := g.linked.filter keeps }.WellFormed where
  issued := by
    apply hg.issued.sublist
    exact ((List.filter_sublist.map _).append_right _).append (List.filter_sublist.map _)
  nodup_names := hg.nodup_names.sublist (List.filter_sublist.map _)
  nodup_ports := hg.nodup_ports
  nodup_parameters := hg.nodup_parameters
  types_known := fun a ha => hg.types_known a (List.mem_of_mem_filter ha)
  nodup_rates := hg.nodup_rates
  rates_at_ports := hg.rates_at_ports
  linked_eq := by rw [hg.linked_eq]
  joins := by
    intro c hc direction
    obtain ⟨hc, hkeeps⟩ := List.mem_filter.mp hc
    have hfits := hg.joins c hc direction
    exact ⟨List.mem_filter.mpr ⟨hfits.actor_mem, hends c hc hkeeps direction⟩, hfits.port_mem,
      hfits.type_eq, hfits.direction_eq⟩

theorem withoutChannel (hg : g.WellFormed) (id : Handle) : (g.removeChannel id).WellFormed := by
  have h := hg.withoutActors (fun _ => true) (·.id != id) (fun _ _ _ _ => rfl)
  have hactors : g.actors.filter (fun _ => true) = g.actors := by simp
  rw [hactors] at h
  exact h

/-- Removing an actor takes off exactly the channels that end at it. -/
theorem removeActor_eq (hg : g.WellFormed) (a : Actor) :
    g.removeActor a =
      { g with
        actors := g.actors.filter (·.id != a.id)
        channels := g.channels.filter fun c =>
          c.source.actor.id != a.id && c.target.actor.id != a.id
        linked := g.linked.filter fun c =>
          c.source.actor.id != a.id && c.target.actor.id != a.id } := by
  have hstays : ∀ c ∈ g.channels, decide (c.id ∉ (g.channelsOf a).map (·.id)) =
      (c.source.actor.id != a.id && c.target.actor.id != a.id) := by
    intro c hc
    have hmem : c.id ∈ (g.channelsOf a).map (·.id) ↔
        c.source.actor.id = a.id ∨ c.target.actor.id = a.id := by
      constructor
      · intro h
        obtain ⟨d, hd, heq⟩ := List.mem_map.mp h
        obtain ⟨hlinked, hend⟩ := (g.mem_channelsOf).mp hd
        rw [hg.linked_eq] at hlinked
        rwa [← hg.channel_eq_of_id hlinked hc heq]
      · intro h
        exact List.mem_map_of_mem ((g.mem_channelsOf).mpr ⟨hg.linked_eq ▸ hc, h⟩)
    by_cases hs : c.source.actor.id = a.id <;> by_cases ht : c.target.actor.id = a.id <;>
      simp [hmem, hs, ht]
  unfold removeActor
  simp only [foldl_removeChannel, hg.linked_eq, List.filter_congr hstays]

theorem withoutActor (hg : g.WellFormed) (a : Actor) : (g.removeActor a).WellFormed := by
  rw [hg.removeActor_eq]
  apply hg.withoutActors
  intro c _ hkeeps direction
  rw [Bool.and_eq_true] at hkeeps
  cases direction with
  | output => exact hkeeps.1
  | input => exact hkeeps.2

private theorem restoreEnd_eq (hg : g.WellFormed) {copy : Graph} (hactors : copy.actors = g.actors)
    (hports : copy.ports = g.ports) {e : Endpoint} {direction : Direction}
    (he : e.FitsIn g direction) : copy.restoreEnd e = .ok e := by
  have hactor : copy.actorAt e.actor.id = .ok e.actor := by
    rw [actorAt, hactors]
    exact hg.actorAt_eq_ok_iff.mpr ⟨he.actor_mem, rfl⟩
  have hport : copy.portAt e.port.id = .ok e.port := by
    rw [portAt, hports]
    exact hg.portAt_eq_ok_iff.mpr ⟨he.port_mem, rfl⟩
  rw [restoreEnd, hactor, hport]
  rfl

/-- No channel has lost its ends, and the copy has the actors and ports at them. -/
theorem restoreChannel_eq (hg : g.WellFormed) {copy : Graph} (hactors : copy.actors = g.actors)
    (hports : copy.ports = g.ports) {c : Channel} (hc : c ∈ g.channels) :
    g.restoreChannel copy c =
      .ok { copy with channels := copy.channels ++ [c], linked := copy.linked ++ [c] } := by
  have hbound : g.isBound c = true :=
    List.any_eq_true.mpr ⟨c, hg.linked_eq ▸ hc, beq_self_eq_true c.id⟩
  have hsource : copy.restoreEnd c.source = .ok c.source :=
    hg.restoreEnd_eq hactors hports (hg.joins c hc .output)
  have htarget : copy.restoreEnd c.target = .ok c.target :=
    hg.restoreEnd_eq hactors hports (hg.joins c hc .input)
  rw [restoreChannel, hbound, hsource, htarget]
  rfl

theorem foldlM_restoreChannel (hg : g.WellFormed) (copy : Graph) {channels : List Channel}
    (hactors : copy.actors = g.actors) (hports : copy.ports = g.ports)
    (hchannels : ∀ c ∈ channels, c ∈ g.channels) :
    channels.foldlM g.restoreChannel copy =
      .ok { copy with
        channels := copy.channels ++ channels, linked := copy.linked ++ channels } := by
  induction channels generalizing copy with
  | nil => simp [pure, Except.pure]
  | cons c channels ih =>
    obtain ⟨hc, hchannels⟩ := List.forall_mem_cons.mp hchannels
    let next :=
      { copy with channels := copy.channels ++ [c], linked := copy.linked ++ [c] }
    have hrest := ih next hactors hports hchannels
    rw [List.foldlM_cons, hg.restoreChannel_eq hactors hports hc]
    refine hrest.trans ?_
    simp [next]

/-- A copy is made in any case. It differs from the graph in no more than that it knows just the
types that have an actor. -/
theorem clone_eq (hg : g.WellFormed) :
    ∃ types, g.clone = .ok { g with types } ∧
      ∀ type, type ∈ types ↔ g.hasType type = true := by
  obtain ⟨types, hfold, htypes⟩ := foldl_restoreActor g.actors g.bare
  refine ⟨types, ?_, fun type => ?_⟩
  · rw [clone, hfold]
    refine (hg.foldlM_restoreChannel { g.bare with actors := g.actors, types } rfl rfl
      fun _ => id).trans ?_
    simp [bare, Graph.empty, hg.linked_eq]
  · simp [htypes, bare, Graph.empty, hasType]

theorem copy (hg : g.WellFormed) {copy : Graph} (h : g.clone = .ok copy) : copy.WellFormed := by
  obtain ⟨types, hclone, htypes⟩ := hg.clone_eq
  cases h.symm.trans hclone
  exact
    { hg with
      issued := hg.issued
      types_known := fun a ha =>
        (htypes a.type).mpr (List.any_eq_true.mpr ⟨a, ha, beq_self_eq_true _⟩)
      joins := fun c hc direction => (hg.joins c hc direction).mono (List.Subset.refl _)
        (List.Subset.refl _) }

end WellFormed

theorem Change.wellFormed {g g' : Graph} (h : Change g g') (hg : g.WellFormed) :
    g'.WellFormed := by
  cases h with
  | useHandle => exact hg.withHandle
  | addActor hid hname => exact hg.withActor hid hname
  | addPort hid hname rate => exact hg.withPort hid hname rate
  | setRate hp hnone rate => exact hg.withRate hp rate hnone
  | addChannel hid hsource htarget => exact hg.withChannel hid hsource htarget
  | addModifier hnone => exact hg.withModifier hnone
  | removeChannel id => exact hg.withoutChannel id
  | removeActor a => exact hg.withoutActor a
  | copy hclone => exact hg.copy hclone

theorem Changes.wellFormed {g g' : Graph} (h : Changes g g') (hg : g.WellFormed) : g'.WellFormed :=
  h.keeps (fun hstep hg => hstep.wellFormed hg) hg

theorem Reachable.wellFormed {g : Graph} (h : g.Reachable) : g.WellFormed := by
  induction h with
  | empty name => exact WellFormed.empty name
  | perform op _ ih => exact (op.changes _).wellFormed ih

end Dataflow.Graph
