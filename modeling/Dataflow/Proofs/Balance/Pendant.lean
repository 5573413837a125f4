import Dataflow.Proofs.Balance.Starts
import Dataflow.Proofs.Graph.Pendant

namespace Dataflow

namespace Balance

open Search

variable {g g' : Graph} {start : Actor} {tree : List Link}

section Searching

/-- The old part of what waits. -/
def oldNodes (g : Graph) (pending : List Node) : List Node :=
  (pending.filter (·.actor.id < g.nextHandle)).map fun node =>
    ⟨node.actor, node.links.filter g.isOld⟩

private theorem take?_oldNodes {a : Actor} (ha : a.id < g.nextHandle) (pending : List Node) :
    take? a (oldNodes g pending) = (take? a pending).map fun taken =>
      (⟨taken.1.actor, taken.1.links.filter g.isOld⟩, oldNodes g taken.2) := by
  induction pending with
  | nil => rfl
  | cons node pending ih =>
    by_cases hid : node.actor.id = a.id
    · simp [oldNodes, take?, hid, ha]
    · by_cases hold : node.actor.id < g.nextHandle
      · simp only [oldNodes] at ih ⊢
        simp [take?, hid, hold, ih, Function.comp_def]
      · simp only [oldNodes] at ih ⊢
        simp [take?, hid, hold, ih, Function.comp_def]

private theorem oldNodes_of_take? {a : Actor} (ha : g.nextHandle ≤ a.id) {pending rest : List Node}
    {node : Node} (h : take? a pending = some (node, rest)) :
    oldNodes g rest = oldNodes g pending := by
  induction pending generalizing rest with
  | nil => simp [take?] at h
  | cons head pending ih =>
    rw [take?] at h
    split at h
    · rename_i hid
      simp only [Option.some.injEq, Prod.mk.injEq] at h
      obtain ⟨rfl, rfl⟩ := h
      have hnew : ¬ head.actor.id < g.nextHandle := Nat.not_lt.mpr (hid ▸ ha)
      simp [oldNodes, hnew]
    · obtain ⟨⟨found, others⟩, htake, heq⟩ := Option.map_eq_some_iff.mp h
      simp only [Prod.mk.injEq] at heq
      obtain ⟨rfl, rfl⟩ := heq
      have hrest := ih htake
      simp only [oldNodes, List.filter_cons] at hrest ⊢
      split <;> simp [hrest]

private theorem oldNodes_nodes (hg : g.WellFormed) (h : g.Pendant g') :
    oldNodes g (nodes g' g'.allLinks) = nodes g g.allLinks := by
  rw [oldNodes, nodes, nodes, List.filter_map, List.map_map, ← h.filter_actors hg]
  refine List.map_congr_left fun a _ => ?_
  simp [h.filter_allLinks hg]

/-- A hanging actor is reached only from the actor that it hangs on. -/
theorem Tree.source_mem (hg : g.WellFormed) (hpendant : g.Pendant g')
    (hstart : start.id < g.nextHandle) (h : Tree g' start tree) {c : Channel}
    (hc : c ∈ g'.channels) (hnew : g.nextHandle ≤ c.target.actor.id)
    (htarget : c.target.actor ∈ reached start tree) : c.source.actor ∈ reached start tree := by
  induction h generalizing c with
  | root _ =>
    rw [reached, List.map_nil, List.mem_singleton] at htarget
    exact absurd hstart (Nat.not_lt.mpr (htarget ▸ hnew))
  | @grow tree link _ hchannel hnear hfar ih =>
    rw [reached_concat] at htarget ⊢
    obtain htarget | htarget := List.mem_append.mp htarget
    · exact List.mem_append_left _ (ih hc hnew htarget)
    · rw [List.mem_singleton] at htarget
      apply List.mem_append_left
      obtain ⟨d, direction⟩ := link
      cases direction with
      | output =>
        obtain rfl : c = d := hpendant.target_inj c hc d hchannel hnew htarget
        exact hnear
      | input =>
        -- Out of a hanging actor the search could only go back to where it came from.
        have hdnew : ¬ d ∈ g.channels := fun hd => by
          have hlt := hg.actor_id_lt (List.mem_map_of_mem (hg.joins d hd .output).actor_mem)
          exact absurd hlt (Nat.not_lt.mpr (htarget ▸ hnew))
        have hle := ((hpendant.channels_new d hchannel).resolve_left hdnew).1
        exact absurd (ih hchannel hle hnear) hfar

/-- A tree has each new link as it leads out to a hanging actor. -/
theorem Tree.direction_eq (hg : g.WellFormed) (hpendant : g.Pendant g')
    (hstart : start.id < g.nextHandle) (h : Tree g' start tree) :
    ∀ link ∈ tree, g.isOld link = false → link.direction = .output := by
  induction h with
  | root _ => simp
  | @grow tree last h hchannel hnear hfar ih =>
    intro link hlink hnew
    obtain hlink | hlink := List.mem_append.mp hlink
    · exact ih link hlink hnew
    · rw [List.mem_singleton.mp hlink] at hnew ⊢
      have hle : g.nextHandle ≤ last.channel.target.actor.id := by simpa [Graph.isOld] using hnew
      obtain ⟨c, direction⟩ := last
      cases direction with
      | output => rfl
      | input => exact absurd (h.source_mem hg hpendant hstart hchannel hle hnear) hfar

private theorem Tree.far_new (hg : g.WellFormed) (hpendant : g.Pendant g')
    (hstart : start.id < g.nextHandle) (h : Tree g' start tree) {link : Link} (hlink : link ∈ tree)
    (hnew : g.isOld link = false) : g.nextHandle ≤ link.far.actor.id := by
  have hdirection := h.direction_eq hg hpendant hstart link hlink hnew
  have hle : g.nextHandle ≤ link.channel.target.actor.id := by simpa [Graph.isOld] using hnew
  rw [Link.far, hdirection]
  exact hle

/-- No old link leads on from a hanging actor. -/
theorem Frontier.filter_links_eq_nil {found : List Actor} {pending rest : List Node} {node : Node}
    {frames : List (List Link)} {links : List Link} {link : Link} (hg : g.WellFormed)
    (hpendant : g.Pendant g') (h : Frontier g' found pending ((link :: links) :: frames))
    (htake : take? link.far.actor pending = some (node, rest))
    (hnew : g.nextHandle ≤ link.far.actor.id) : node.links.filter g.isOld = [] := by
  have hactor := h.taken_eq hpendant.grown.1 htake
  obtain ⟨hmem, hlinks⟩ := h.waiting_mem node (mem_of_take? htake)
  rw [hactor] at hmem hlinks
  rw [hlinks]
  exact hpendant.filter_allLinks_eq_nil hg hmem hnew

/-- The old links are followed as if nothing hung on the graph. -/
theorem explore_filter (hg : g.WellFormed) (hpendant : g.Pendant g')
    (hstart : start.id < g.nextHandle) (pending : List Node) (frames : List (List Link))
    {sofar : List Link} (htree : Tree g' start sofar)
    (h : Frontier g' (reached start sofar) pending frames) :
    (explore pending frames).filter g.isOld =
      explore (oldNodes g pending) (frames.map (·.filter g.isOld)) := by
  -- By the recursion of the larger search: the smaller one takes the same step, or only pops the
  -- empty frame of a hanging actor, or stays where it is.
  induction pending, frames using explore.induct generalizing sofar with
  | case1 pending => simp [explore]
  | case2 pending frames ih =>
    rw [explore, List.map_cons, List.filter_nil, explore]
    exact ih htree h.popFrame
  | case3 pending link links frames htake ih =>
    have hrest := ih htree h.skipLink
    rw [explore, htake]
    show (explore pending (links :: frames)).filter g.isOld = _
    rw [hrest, List.map_cons, List.map_cons]
    cases hold : g.isOld link with
    | false => rw [List.filter_cons_of_neg (by simp [hold])]
    | true =>
      have hlink := h.leads _ List.mem_cons_self link List.mem_cons_self
      have hlt := (hpendant.id_lt_of_isOld hg hlink.1 hold).2
      have hnone : take? link.far.actor (oldNodes g pending) = none := by
        rw [take?_oldNodes hlt, htake, Option.map_none]
      rw [List.filter_cons_of_pos hold]
      conv => rhs; rw [explore, hnone]
  | case4 pending link links frames node rest htake ih =>
    obtain ⟨hchannel, hnear⟩ := h.leads _ List.mem_cons_self link List.mem_cons_self
    have hnext := h.followLink hpendant.grown.1 htake
    rw [← reached_concat] at hnext
    have hgrown := htree.grow hchannel hnear (h.far_notMem hpendant.grown.1 htake)
    have hrest := ih hgrown hnext
    rw [explore, htake]
    show (link :: explore rest (node.links :: links :: frames)).filter g.isOld = _
    cases hold : g.isOld link with
    | true =>
      have hlt := (hpendant.id_lt_of_isOld hg hchannel hold).2
      have htake' := take?_oldNodes hlt pending
      rw [htake, Option.map_some] at htake'
      rw [List.filter_cons_of_pos hold, hrest, List.map_cons, List.map_cons, List.map_cons,
        List.filter_cons_of_pos hold]
      conv => rhs; rw [explore, htake']
    | false =>
      have hnew := hgrown.far_new hg hpendant hstart (List.mem_append_right _ List.mem_cons_self) hold
      have hempty := h.filter_links_eq_nil hg hpendant htake hnew
      rw [List.filter_cons_of_neg (by simp [hold]), hrest, oldNodes_of_take? hnew htake,
        List.map_cons, List.map_cons, hempty, explore, List.map_cons,
        List.filter_cons_of_neg (by simp [hold])]

private theorem spanningTree_filter (hg : g.WellFormed) (hpendant : g.Pendant g')
    (hstart : start ∈ g.actors) :
    (spanningTree g' start).filter g.isOld = spanningTree g start := by
  have hlt := hg.actor_id_lt (List.mem_map_of_mem hstart)
  have hmem := hpendant.grown.2.actors.subset hstart
  obtain ⟨node, rest, htake, hlinks, hfrontier⟩ := exists_frontier hpendant.grown.1 hmem
  have htake' := take?_oldNodes hlt (nodes g' g'.allLinks)
  rw [oldNodes_nodes hg hpendant, htake, Option.map_some] at htake'
  rw [spanningTree, spanningTree, htake, htake']
  exact explore_filter hg hpendant hlt rest [node.links] (.root hmem) hfrontier

end Searching

section Reaching

private theorem pendant_tree (hpendant : g.Pendant g') (hstart : start ∈ g.actors) :
    Tree g' start (spanningTree g' start) :=
  spanningTree_tree hpendant.grown.1 (hpendant.grown.2.actors.subset hstart)

variable (hg : g.WellFormed) (hpendant : g.Pendant g')
include hg hpendant

/-- The search reaches the same old actors. -/
theorem mem_reached_iff (hstart : start ∈ g.actors) {a : Actor} (ha : a ∈ g.actors) :
    a ∈ reached start (spanningTree g' start) ↔ a ∈ reached start (spanningTree g start) := by
  have hlt := hg.actor_id_lt (List.mem_map_of_mem hstart)
  rw [← spanningTree_filter hg hpendant hstart]
  constructor
  · intro hreached
    obtain rfl | hreached := List.mem_cons.mp hreached
    · exact List.mem_cons_self
    · obtain ⟨link, hlink, rfl⟩ := List.mem_map.mp hreached
      cases hold : g.isOld link with
      | true => exact mem_reached_of_mem (List.mem_filter.mpr ⟨hlink, hold⟩)
      | false =>
        have hnew := (pendant_tree hpendant hstart).far_new hg hpendant hlt hlink hold
        exact absurd (hg.actor_id_lt (List.mem_map_of_mem ha)) (Nat.not_lt.mpr hnew)
  · intro hreached
    obtain rfl | hreached := List.mem_cons.mp hreached
    · exact List.mem_cons_self
    · obtain ⟨link, hlink, rfl⟩ := List.mem_map.mp hreached
      exact mem_reached_of_mem (List.mem_of_mem_filter hlink)

end Reaching

section Cycles

end Cycles

section Counting

variable {φ ψ : Actor → String → Int} {fractions fractions' : Fractions} {c : Channel}

end Counting

section Verdicts

variable {fractions fractions' : Fractions} {verdict verdict' : Verdict Repetitions Inconsistency}
  {c : Channel} {ratio ratio' : Ratio}

private theorem Outcome.exists_factor {table table' : Repetitions} (hg : g.WellFormed)
    (hpendant : g.Pendant g') (hspread : Spread g start fractions)
    (hspread' : Spread g' start fractions') (h : Outcome g start fractions (.success table))
    (h' : Outcome g' start fractions' (.success table')) :
    ∃ factor, ∀ a ∈ g.actors, (table'.count a == table.count a * factor) = true := by
  cases h with
  | solved hchannels hscale =>
    cases h' with
    | solved hchannels' hscale' =>
      have hsolved := hspread.solved hg hchannels hscale
      have hsolved' := hspread'.solved hpendant.grown.1 hchannels' hscale'
      exact hspread.exists_factor hg hscale fun c hc =>
        (hsolved'.balances c (hpendant.grown.2.channels.subset hc)).anti hpendant.grown.2
          (hsolved.balances c hc)

section Comparing

variable (hg : g.WellFormed) (hpendant : g.Pendant g') (hstart : start ∈ g.actors)
  (hspread : Spread g start fractions) (hspread' : Spread g' start fractions')
include hg hpendant hstart hspread hspread'

end Comparing

end Verdicts

end Balance

namespace Workspace

variable {w w' : Workspace} {start : Actor} {verdict : Verdict Repetitions Inconsistency}

private theorem Finds.ending (hw : w.rates.UsedWith w.graph) (hstart : start ∈ w.graph.actors)
    (h : w.Finds (some start) verdict) :
    ∃ fractions, Balance.Spread w.graph start fractions ∧
      Balance.Ending w.graph start fractions verdict := by
  obtain ⟨⟨cache, hsolve⟩, -⟩ := h
  obtain ⟨hactors, -⟩ | ⟨_, -, -, hending⟩ := Balance.solve_ending hw.reachable.wellFormed
    hw.agrees (fun a ha => Option.some.inj ha ▸ hstart) hsolve
  · rw [hactors] at hstart
    cases hstart
  · exact hending

theorem Finds.solved {table : Repetitions} (hw : w.rates.UsedWith w.graph)
    (hstart : start ∈ w.graph.actors) (h : w.Finds (some start) (.success table)) :
    Balance.Solved w.graph table := by
  have hg := hw.reachable.wellFormed
  obtain ⟨⟨cache, hsolve⟩, -⟩ := h
  have hfound : Balance.Found w.graph table :=
    ⟨some start, w.rates, cache, fun a ha => Option.some.inj ha ▸ hstart, hw.agrees, hsolve⟩
  exact hfound.solved hg

end Workspace

end Dataflow
