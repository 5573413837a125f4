import Dataflow.Proofs.Balance.Disconnection
import Dataflow.Proofs.Balance.Recursion

namespace Dataflow

open Balance Dataflow.Action

/-- The channels back from an actor, each the one over which the actor before it was entered, until
there is none. -/
def Graph.walkBack (g : Graph) (entries : List (Handle × Channel)) (a : Actor) :
    Recursion Unit Failure (List Channel) := do
  match entries.lookup a.id with
  | none => return []
  | some c =>
    let b ← liftM (g.oppositeActor c a)
    let rest ← g |>.walkBack entries b
    return c :: rest
partial_fixpoint

namespace Balance

/-- Two ends have counts and rates, and what one of them produces the other consumes. -/
def Level (rates : RateCache) (fractions : Fractions) (e e' : Endpoint) : Prop :=
  ∃ f f' m m', fraction fractions e.actor = .ok f ∧ fraction fractions e'.actor = .ok f' ∧
    rates.entries.lookup e.port.id = some m ∧ rates.entries.lookup e'.port.id = some m' ∧
    (f * .ofMonomial m == f' * .ofMonomial m') = true

section Levels

variable {g : Graph} {cache rates : RateCache} {fractions result : Fractions} {tree : List Link}

private theorem Level.symm {e e' : Endpoint} (h : Level rates fractions e e') :
    Level rates fractions e' e := by
  obtain ⟨f, f', m, m', hf, hf', hm, hm', heq⟩ := h
  exact ⟨f', f, m', m, hf', hf, hm', hm,
    Ratio.beq_iff.mpr fun key => (Ratio.beq_iff.mp heq key).symm⟩

private theorem fraction_append {more : Fractions} {a : Actor} {f : Ratio}
    (h : fraction fractions a = .ok f) : fraction (fractions ++ more) a = .ok f := by
  rw [fraction_eq_ok_iff] at h ⊢
  rw [List.lookup_append, h, Option.some_or]

/-- Each link that carried a count has level ends, at the rates that were read on the way. -/
theorem propagate_level
    (hnodup : (fractions.map Prod.fst ++ tree.map (·.far.actor.id)).Nodup)
    (h : propagate g fractions tree cache = .ok result rates) :
    cache.KeptBy rates ∧ ∀ link ∈ tree, Level rates result link.near link.far := by
  induction tree generalizing fractions cache with
  | nil =>
    cases h
    exact ⟨fun _ _ => id, by simp⟩
  | cons link tree ih =>
    unfold propagate at h
    obtain ⟨left, cache₁, hleft, h⟩ := bind_eq_ok_iff.mp h
    obtain ⟨entered, cache₂, hentered, h⟩ := bind_eq_ok_iff.mp h
    obtain ⟨near, _, hlift, h⟩ := bind_eq_ok_iff.mp h
    obtain ⟨hnear, rfl⟩ := lift_eq_ok_iff.mp hlift
    obtain ⟨hkept₁, hheld₁⟩ := RateCache.rate_held hleft
    obtain ⟨hkept₂, hheld₂⟩ := RateCache.rate_held hentered
    have hnodup' : ((fractions ++ [(link.far.actor.id, near * .of left entered)]).map Prod.fst ++
        tree.map (·.far.actor.id)).Nodup := by
      simpa using hnodup
    obtain ⟨hkept, hlevel⟩ := ih hnodup' h
    refine ⟨fun handle m hm => hkept _ _ (hkept₂ _ _ (hkept₁ _ _ hm)),
      List.forall_mem_cons.mpr ⟨?_, hlevel⟩⟩
    obtain ⟨more, hresult, -⟩ := propagate_extends h
    have hfar : fractions.lookup link.far.actor.id = none := by
      apply Assoc.lookup_eq_none_of_notMem
      exact fun hmem => (List.nodup_append.mp hnodup).2.2 _ hmem _ List.mem_cons_self rfl
    have hold : fraction result link.near.actor = .ok near := by
      rw [hresult]
      exact fraction_append (fraction_append hnear)
    have hnew : fraction result link.far.actor = .ok (near * .of left entered) := by
      rw [hresult]
      apply fraction_append
      rw [fraction_eq_ok_iff, List.lookup_append, hfar, Option.none_or, List.lookup_cons_self]
    refine ⟨near, _, left, entered, hold, hnew,
      hkept _ _ (hkept₂ _ _ hheld₁), hkept _ _ hheld₂, Ratio.beq_iff.mpr fun key => ?_⟩
    simp only [Ratio.exponent_mul, Ratio.exponent_of, Ratio.exponent_ofMonomial]
    omega

/-- From the end at which a channel was left to its source and its target. -/
theorem Level.ends {link : Link} (h : Level rates fractions link.near link.far) :
    Level rates fractions link.channel.source link.channel.target := by
  obtain ⟨c, direction⟩ := link
  cases direction with
  | output => exact h
  | input => exact h.symm

end Levels

section Paths

variable {g : Graph} {start : Actor} {tree : List Link}

/-- The actor across the channel over which another one was entered. -/
theorem oppositeActor_far (hg : g.WellFormed) {link : Link} (hchannel : link.channel ∈ g.channels)
    (hne : link.near.actor.id ≠ link.far.actor.id) :
    g.oppositeActor link.channel link.far.actor = .ok link.near.actor := by
  have hbound : g.isBound link.channel = true := by
    rw [Graph.isBound, hg.linked_eq]
    exact List.any_eq_true.mpr ⟨_, hchannel, beq_self_eq_true _⟩
  obtain ⟨c, direction⟩ := link
  cases direction with
  | output =>
    have hsource : c.source.actor.id ≠ c.target.actor.id := hne
    show g.oppositeActor c c.target.actor = .ok c.source.actor
    rw [Graph.oppositeActor, hbound, if_neg hsource, if_pos rfl]
    rfl
  | input =>
    show g.oppositeActor c c.source.actor = .ok c.target.actor
    rw [Graph.oppositeActor, hbound, if_pos rfl]
    rfl

private theorem walkBack_of_none {entries : List (Handle × Channel)} {a : Actor}
    (h : entries.lookup a.id = none) : g.walkBack entries a () = some (.ok [], ()) := by
  rw [Graph.walkBack, h]
  rfl

private theorem walkBack_of_some {entries : List (Handle × Channel)} {a b : Actor} {c : Channel}
    {path : List Channel} (h : entries.lookup a.id = some c) (hb : g.oppositeActor c a = .ok b)
    (hpath : g.walkBack entries b () = some (.ok path, ())) :
    g.walkBack entries a () = some (.ok (c :: path), ()) := by
  have hlift : (liftM (g.oppositeActor c a) : Recursion Unit Failure Actor) () =
      some (.ok b, ()) := by
    rw [hb]
    rfl
  rw [Graph.walkBack, h]
  show (_ >>= _ : Recursion Unit Failure _) () = _
  rw [Recursion.bind_of_ok hlift, Recursion.bind_of_ok hpath]
  rfl

private theorem nodup_predecessors (hg : g.WellFormed) (h : Tree g start tree) :
    start.id ∉ (predecessors tree).map Prod.fst ∧ ((predecessors tree).map Prod.fst).Nodup := by
  have hkeys : (predecessors tree).map Prod.fst = (tree.map (·.far.actor)).map (·.id) := by
    simp [predecessors, Function.comp_def]
  have hids := h.nodup_reached_ids hg
  rw [reached, List.map_cons, ← hkeys] at hids
  exact List.nodup_cons.mp hids

private theorem lookup_predecessors (hg : g.WellFormed) (h : Tree g start tree) {link : Link}
    (hlink : link ∈ tree) : (predecessors tree).lookup link.far.actor.id = some link.channel :=
  Assoc.lookup_eq_some_of_mem (nodup_predecessors hg h).2 (List.mem_map.mpr ⟨link, hlink, rfl⟩)

/-- The channels over which the actors of a tree were entered lead back along its paths, which stay
in the part of the tree that was there before. -/
theorem walkBack_eq (hg : g.WellFormed) (htree : Tree g start tree) {before : List Link}
    (h : Tree g start before) (hbefore : before <+: tree) {a : Actor}
    (ha : a ∈ reached start before) :
    g.walkBack (predecessors tree) a () =
      some (.ok ((pathToStart before.reverse a).map (·.channel)), ()) := by
  induction h generalizing a with
  | root _ =>
    obtain rfl : a = start := by simpa [reached] using ha
    exact walkBack_of_none (Assoc.lookup_eq_none_of_notMem (nodup_predecessors hg htree).1)
  | @grow before link h hchannel hnear hfar ih =>
    have hearlier : before <+: tree := (List.prefix_append before [link]).trans hbefore
    rw [List.reverse_append, List.reverse_singleton, List.singleton_append, pathToStart]
    rw [reached_concat] at ha
    obtain ha | ha := List.mem_append.mp ha
    · rw [if_neg (h.far_id_ne hg hchannel hfar ha)]
      exact ih hearlier ha
    · have hlink : link ∈ tree :=
        hbefore.subset (List.mem_append_right _ (List.mem_singleton_self link))
      have hne := (h.far_id_ne hg hchannel hfar hnear).symm
      rw [List.mem_singleton.mp ha, if_pos rfl, List.map_cons]
      exact walkBack_of_some (lookup_predecessors hg htree hlink)
        (oppositeActor_far hg hchannel hne) (ih hearlier hnear)

end Paths

/-- What a propagation that began at `start` has come to when it ends: counts for the actors of a
component in the order in which they were reached, and a tree of the channels that carried them. -/
structure Spans (g : Graph) (start : Actor) (tree : List Link) (fractions : Fractions)
    (rates : RateCache) : Prop where
  keys_eq : fractions.map Prod.fst = (reached start tree).map (·.id)
  nodup_keys : (fractions.map Prod.fst).Nodup
  /-- The actors with counts are those that channels join to the start. -/
  joined_iff : ∀ a, Joined g start a ↔ a ∈ g.actors ∧ ∃ f, fraction fractions a = .ok f
  nodup_visited : (tree.map (·.channel.id)).Nodup
  length_visited : tree.length + 1 = fractions.length
  lookup_start : (predecessors tree).lookup start.id = none
  /-- An actor but the start was entered from one that had been reached before. -/
  enters : ∀ a, Joined g start a → a ≠ start → ∃ before link after,
    tree = before ++ link :: after ∧ link.channel ∈ g.channels ∧ link.far.actor = a ∧
      (predecessors tree).lookup a.id = some link.channel ∧ link.near.actor ∈ reached start before
  /-- From every actor the way over which it was entered ends at the start. -/
  returns : ∀ a, Joined g start a →
    Leads a ((pathToStart tree.reverse a).map Link.opposite) start ∧
      g.walkBack (predecessors tree) a () =
        some (.ok ((pathToStart tree.reverse a).map (·.channel)), ())
  level : ∀ link ∈ tree, Level rates fractions link.channel.source link.channel.target

namespace Tree

variable {g : Graph} {start : Actor} {tree : List Link} {fractions : Fractions} {a : Actor}

private theorem nodup_channel_ids (hg : g.WellFormed) (h : Tree g start tree) :
    (tree.map (·.channel.id)).Nodup := by
  have hids : tree.map (·.channel.id) = (tree.map (·.channel)).map (·.id) := by simp
  rw [hids]
  refine h.nodup_channels.map_on fun c hc c' hc' hid => ?_
  obtain ⟨link, hlink, rfl⟩ := List.mem_map.mp hc
  obtain ⟨link', hlink', rfl⟩ := List.mem_map.mp hc'
  exact hg.channel_eq_of_id (h.channel_mem link hlink) (h.channel_mem link' hlink') hid

/-- When counts have the handles of what a tree has reached, they are the counts of that. -/
theorem mem_reached_iff (hg : g.WellFormed) (h : Tree g start tree)
    (hkeys : fractions.map Prod.fst = (reached start tree).map (·.id)) :
    a ∈ reached start tree ↔ a ∈ g.actors ∧ ∃ f, fraction fractions a = .ok f := by
  constructor
  · intro ha
    have hkey : a.id ∈ fractions.map Prod.fst := hkeys ▸ List.mem_map_of_mem ha
    exact ⟨h.reached_subset hg ha, exists_fraction hkey⟩
  · rintro ⟨ha, f, hf⟩
    have hentry := Assoc.mem_of_lookup_eq_some (fraction_eq_ok_iff.mp hf)
    have hkey : a.id ∈ (reached start tree).map (·.id) := hkeys ▸ List.mem_map.mpr ⟨_, hentry, rfl⟩
    obtain ⟨b, hb, hid⟩ := List.mem_map.mp hkey
    exact hg.actor_eq_of_id (h.reached_subset hg hb) ha hid ▸ hb

/-- An actor but the start was entered over a link from one that was reached before. -/
theorem exists_entering (hg : g.WellFormed) (h : Tree g start tree) (ha : a ∈ reached start tree)
    (hne : a ≠ start) : ∃ before link after,
      tree = before ++ link :: after ∧ link.channel ∈ g.channels ∧ link.far.actor = a ∧
        (predecessors tree).lookup a.id = some link.channel ∧
        link.near.actor ∈ reached start before := by
  obtain ⟨link, hlink, rfl⟩ := List.mem_map.mp ((List.mem_cons.mp ha).resolve_left hne)
  obtain ⟨before, after, hsplit⟩ := List.append_of_mem hlink
  exact ⟨before, link, after, hsplit, h.channel_mem link hlink, rfl, lookup_predecessors hg h hlink,
    h.near_mem_before hsplit⟩

private theorem leads_pathToStart (hg : g.WellFormed) (h : Tree g start tree)
    (ha : a ∈ reached start tree) :
    Leads a ((pathToStart tree.reverse a).map Link.opposite) start := by
  have hback := (h.leads_pathTo hg ha).reverse
  rwa [pathTo, List.map_reverse, List.reverse_reverse] at hback

end Tree

section Component

variable {g : Graph} {start : Actor} {cache rates : RateCache} {fractions : Fractions}

private theorem joined_iff_mem_reached (hg : g.WellFormed) (hstart : start ∈ g.actors) {a : Actor} :
    Joined g start a ↔ a ∈ reached start (spanningTree g start) :=
  ⟨mem_reached_of_joined hg hstart, (spanningTree_tree hg hstart).joined hg⟩

/-- The size of the component that a spanning tree reaches. -/
theorem ncard_joined (hg : g.WellFormed) (hstart : start ∈ g.actors) :
    {a | Joined g start a}.ncard = (reached start (spanningTree g start)).length := by
  classical
  have hset : {a | Joined g start a} =
      ((reached start (spanningTree g start)).toFinset : Set Actor) := by
    ext a
    rw [List.coe_toFinset]
    exact joined_iff_mem_reached hg hstart
  rw [hset, Set.ncard_coe_finset, List.toFinset_card_of_nodup]
  exact (spanningTree_tree hg hstart).nodup_reached

private theorem propagate_spans (hg : g.WellFormed) (hstart : start ∈ g.actors)
    (h : propagate g [(start.id, .one)] (spanningTree g start) cache = .ok fractions rates) :
    Spans g start (spanningTree g start) fractions rates := by
  have htree := spanningTree_tree hg hstart
  have hkeys : fractions.map Prod.fst = (reached start (spanningTree g start)).map (·.id) := by
    obtain ⟨more, rfl, hmore⟩ := propagate_extends h
    simp [reached, hmore, Function.comp_def]
  exact
    { keys_eq := hkeys
      nodup_keys := hkeys ▸ htree.nodup_reached_ids hg
      joined_iff := fun a =>
        (joined_iff_mem_reached hg hstart).trans (htree.mem_reached_iff hg hkeys)
      nodup_visited := htree.nodup_channel_ids hg
      length_visited := by simpa [reached] using (congrArg List.length hkeys).symm
      lookup_start := Assoc.lookup_eq_none_of_notMem (nodup_predecessors hg htree).1
      enters := fun a ha => htree.exists_entering hg ((joined_iff_mem_reached hg hstart).mp ha)
      returns := fun a ha =>
        have hmem := (joined_iff_mem_reached hg hstart).mp ha
        ⟨htree.leads_pathToStart hg hmem, walkBack_eq hg htree htree (List.prefix_refl _) hmem⟩
      level := fun link hlink =>
        have hlevel := (propagate_level (fresh_outset hg hstart cache).fractions h).2
        (hlevel link hlink).ends }

/-- A component has all actors when the graph is connected. -/
theorem connected_iff_ncard (hg : g.WellFormed) (hstart : start ∈ g.actors) :
    g.Connected ↔ {a | Joined g start a}.ncard = g.actors.length := by
  rw [ncard_joined hg hstart]
  have htree := spanningTree_tree hg hstart
  constructor
  · intro hconnected
    have hperm : (reached start (spanningTree g start)).Perm g.actors :=
      (List.perm_ext_iff_of_nodup htree.nodup_reached (.of_map _ hg.nodup_actor_ids)).mpr fun a =>
        ⟨fun ha => htree.reached_subset hg ha,
          fun ha => mem_reached_of_joined hg hstart (hconnected start hstart a ha)⟩
    exact hperm.length_eq
  · intro hlength a ha b hb
    have hfrom {c : Actor} (hc : c ∈ g.actors) : Joined g start c :=
      htree.joined hg (htree.mem_reached_of_length hg hlength hc)
    exact (hfrom ha).symm.trans (hfrom hb)

end Component

/-- If `propagate` returns along the spanning tree of a start, with any cache of rates, then it has
spanned the component of the start. `Workspace.solve` fails with a disconnection if and only if the
graph is not connected, and the failure counts the actors of the graph and of the component. -/
theorem propagate_spans_component {w : Workspace} {start : Actor} {fractions : Fractions}
    {rates : RateCache} (hg : w.graph.Reachable) (hstart : start ∈ w.graph.actors)
    (h : propagate w.graph [(start.id, .one)] (spanningTree w.graph start) w.rates =
      .ok fractions rates) :
    Spans w.graph start (spanningTree w.graph start) fractions rates ∧
      (w.rates.Agrees w.graph → rates.Agrees w.graph) ∧
      (w.Disconnects (some start) ↔ ¬ w.graph.Connected) ∧
      ∀ actors reached w', w.solve (some start) = .error (.disconnected actors reached) w' →
        actors = w.graph.actors.length ∧
          reached = {a | Joined w.graph start a}.ncard := by
  have hspans := propagate_spans hg.wellFormed hstart h
  have hncard : {a | Joined w.graph start a}.ncard = fractions.length := by
    rw [ncard_joined hg.wellFormed hstart, ← hspans.length_visited, reached, List.length_cons,
      List.length_map]
  refine ⟨hspans, fun hagrees => (propagate_keeps _ _).of_ok hagrees h, ?_, ?_⟩
  · rw [connected_iff_ncard hg.wellFormed hstart, hncard]
    constructor
    · rintro ⟨actors, reached, hfails⟩
      exact ((Workspace.solve_disconnected_iff hstart h).mp hfails).1
    · intro hlength
      exact ⟨_, _, (Workspace.solve_disconnected_iff hstart h).mpr ⟨hlength, rfl, rfl⟩⟩
  · intro actors reached w' hfails
    rw [hncard]
    exact ((Workspace.solve_disconnected_iff hstart h).mp ⟨w', hfails⟩).2

/-- Two actors that channels join and one that none leads to. -/
def apart : Graph :=
  parallel.performAll [.addActor "c" "A" 0 false]

theorem propagate_spans_component_apart :
    apart.actors.length = 3 ∧ ∃ b ∈ apart.actors, b.name = "b" ∧ ∃ fractions rates,
      propagate apart [(b.id, .one)] (spanningTree apart b) .empty = .ok fractions rates ∧
      Spans apart b (spanningTree apart b) fractions rates ∧ rates.Agrees apart ∧
      Workspace.Disconnects (some b) ⟨apart, .empty, .empty, []⟩ ∧ ¬ apart.Connected ∧
      {a | Joined apart b a}.ncard = 2 := by
  have hg : apart.Reachable := ((Graph.Reachable.empty none).performAll _).performAll _
  have hstart : (⟨1, "b", "B", 0, false⟩ : Actor) ∈ apart.actors := by decide +kernel
  have hnone : failure? (propagate apart [(1, .one)]
      (spanningTree apart ⟨1, "b", "B", 0, false⟩)) .empty = none := by
    decide +kernel
  have hfails : failure? (Workspace.solve (some ⟨1, "b", "B", 0, false⟩))
      ⟨apart, .empty, .empty, []⟩ = some (.disconnected 3 2) := by
    decide +kernel
  obtain ⟨fractions, rates, hrun⟩ := failure?_eq_none_iff.mp hnone
  obtain ⟨w', hsolve⟩ := failure?_eq_some_iff.mp hfails
  obtain ⟨hspans, hagrees, hdisconnects, htold⟩ :=
    propagate_spans_component (w := ⟨apart, .empty, .empty, []⟩) hg hstart hrun
  exact ⟨by decide +kernel, _, hstart, rfl, fractions, rates, hrun, hspans, hagrees (.empty apart),
    ⟨3, 2, w', hsolve⟩, hdisconnects.mp ⟨3, 2, w', hsolve⟩, (htold 3 2 w' hsolve).2.symm⟩

end Balance

end Dataflow
