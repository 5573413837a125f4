import Dataflow.Proofs.Balance.Path
import Dataflow.Proofs.Balance.Solver

namespace Dataflow

/-- Channels of the graph lead from one actor to the other, each taken in either direction. -/
def Joined (g : Graph) (a b : Actor) : Prop :=
  ∃ walk, Leads a walk b ∧ ∀ link ∈ walk, link.channel ∈ g.channels

namespace Joined

variable {g g' : Graph} {a b c : Actor}

theorem symm (h : Joined g a b) : Joined g b a := by
  obtain ⟨walk, hwalk, hchannels⟩ := h
  refine ⟨_, hwalk.reverse, fun link hlink => ?_⟩
  obtain ⟨l, hl, rfl⟩ := List.mem_map.mp (List.mem_reverse.mp hlink)
  exact hchannels l hl

theorem trans (h : Joined g a b) (h' : Joined g b c) : Joined g a c := by
  obtain ⟨walk, hwalk, hchannels⟩ := h
  obtain ⟨further, hfurther, hchannels'⟩ := h'
  refine ⟨_, hwalk.append hfurther, fun link hlink => ?_⟩
  exact (List.mem_append.mp hlink).elim (hchannels link) (hchannels' link)

theorem mono (h : Joined g a b) (hsub : g.channels ⊆ g'.channels) : Joined g' a b := by
  obtain ⟨walk, hwalk, hchannels⟩ := h
  exact ⟨walk, hwalk, fun link hlink => hsub (hchannels link hlink)⟩

end Joined

namespace Balance

open Search

/-- A search has missed nothing: every actor was found or waits, and every link from an actor that
was found leads to another such actor or is still to be followed. -/
structure Exhaustive (g : Graph) (found : List Actor) (pending : List Node)
    (frames : List (List Link)) : Prop where
  covers : ∀ a ∈ g.actors, a ∈ found ∨ a.id ∈ waiting pending
  follows : ∀ link : Link, link.channel ∈ g.channels → link.near.actor ∈ found →
    link.far.actor ∈ found ∨ link ∈ frames.flatten

namespace Exhaustive

variable {g : Graph} {found : List Actor} {pending rest : List Node} {node : Node}
  {frames fewer : List (List Link)} {links : List Link} {link : Link}

/-- Links to actors that were found need not be followed. -/
theorem dropLinks (h : Exhaustive g found pending frames)
    (hdrop : ∀ link ∈ frames.flatten, link.far.actor ∈ found ∨ link ∈ fewer.flatten) :
    Exhaustive g found pending fewer where
  covers := h.covers
  follows := fun link hlink hnear => (h.follows link hlink hnear).elim .inl (hdrop link)

private theorem addFound (h : Exhaustive g found pending frames) (hg : g.WellFormed) {a : Actor}
    (ha : a ∈ g.actors) (hperm : pending.Perm (node :: rest)) (hid : node.actor.id = a.id) :
    Exhaustive g (found ++ [a]) rest (g.allLinks a :: frames) where
  covers := by
    intro b hb
    obtain hfound | hwaiting := h.covers b hb
    · exact .inl (List.mem_append_left _ hfound)
    · rw [waiting, (hperm.map _).mem_iff, List.map_cons, List.mem_cons] at hwaiting
      obtain heq | hwaiting := hwaiting
      · have hab := hg.actor_eq_of_id hb ha (heq.trans hid)
        exact .inl (List.mem_append_right _ (List.mem_singleton.mpr hab))
      · exact .inr hwaiting
  follows := by
    intro link hlink hnear
    rw [List.flatten_cons]
    obtain hnear | hnear := List.mem_append.mp hnear
    · obtain hfar | hmem := h.follows link hlink hnear
      · exact .inl (List.mem_append_left _ hfar)
      · exact .inr (List.mem_append_right _ hmem)
    · have hmem := (hg.mem_allLinks ha).mpr ⟨hlink, List.mem_singleton.mp hnear⟩
      exact .inr (List.mem_append_left _ hmem)

/-- A link is skipped when it leads to an actor that was found. -/
theorem skipLink (h : Exhaustive g found pending ((link :: links) :: frames)) (hg : g.WellFormed)
    (hfrontier : Frontier g found pending ((link :: links) :: frames))
    (htake : take? link.far.actor pending = none) :
    link.far.actor ∈ found ∧ Exhaustive g found pending (links :: frames) := by
  have hlink := hfrontier.leads _ List.mem_cons_self link List.mem_cons_self
  have hactor := hg.far_mem hlink.1
  have hfound := (h.covers _ hactor).resolve_right (take?_eq_none htake)
  refine ⟨hfound, h.dropLinks fun l hl => ?_⟩
  obtain rfl | hl := List.mem_cons.mp hl
  · exact .inl hfound
  · exact .inr hl

theorem followLink (h : Exhaustive g found pending ((link :: links) :: frames)) (hg : g.WellFormed)
    (hfrontier : Frontier g found pending ((link :: links) :: frames))
    (htake : take? link.far.actor pending = some (node, rest)) :
    Exhaustive g (found ++ [link.far.actor]) rest (node.links :: links :: frames) := by
  have hactor := hfrontier.taken_eq hg htake
  obtain ⟨hid, hperm⟩ := take?_eq_some htake
  obtain ⟨hmem, hlinks⟩ := hfrontier.waiting_mem node (mem_of_take? htake)
  rw [hactor] at hmem hlinks
  refine (h.addFound hg hmem hperm hid).dropLinks fun l hl => ?_
  rw [hlinks]
  obtain hl | hl := List.mem_append.mp hl
  · exact .inr (List.mem_append_left _ hl)
  · obtain rfl | hl := List.mem_cons.mp hl
    · exact .inl (List.mem_append_right _ (List.mem_singleton_self _))
    · exact .inr (List.mem_append_right _ hl)

end Exhaustive

variable {g : Graph} {start : Actor}

/-- When a search is over, no link leads out of what it found. -/
theorem explore_closed (hg : g.WellFormed) (pending : List Node) (frames : List (List Link))
    {sofar : List Link} (h : Frontier g (reached start sofar) pending frames)
    (hall : Exhaustive g (reached start sofar) pending frames) (link : Link)
    (hlink : link.channel ∈ g.channels)
    (hnear : link.near.actor ∈ reached start (sofar ++ explore pending frames)) :
    link.far.actor ∈ reached start (sofar ++ explore pending frames) := by
  -- By the recursion of the search: nothing is missed at any time, and at the end nothing is left
  -- to be followed.
  induction pending, frames using explore.induct generalizing sofar with
  | case1 pending =>
    rw [explore, List.append_nil] at hnear ⊢
    exact (hall.follows link hlink hnear).resolve_right (by simp)
  | case2 pending frames ih =>
    rw [explore] at hnear ⊢
    exact ih h.popFrame (hall.dropLinks fun _ => .inr) hnear
  | case3 pending next links frames htake ih =>
    obtain ⟨-, hrest⟩ := hall.skipLink hg h htake
    rw [explore, htake] at hnear ⊢
    exact ih h.skipLink hrest hnear
  | case4 pending next links frames node rest htake ih =>
    have hfrontier := h.followLink hg htake
    have hrest := hall.followLink hg h htake
    have hstep : explore pending ((next :: links) :: frames) =
        next :: explore rest (node.links :: links :: frames) := by
      rw [explore, htake]
    rw [← reached_concat] at hfrontier hrest
    rw [hstep, List.append_cons] at hnear ⊢
    exact ih hfrontier hrest hnear

/-- When a search begins, nothing was missed. -/
theorem exists_exhaustive (hg : g.WellFormed) (hstart : start ∈ g.actors) :
    ∃ node rest, take? start (nodes g g.allLinks) = some (node, rest) ∧
      node.links = g.allLinks start ∧ Frontier g (reached start []) rest [node.links] ∧
      Exhaustive g (reached start []) rest [node.links] := by
  obtain ⟨node, rest, htake, hlinks, hfrontier⟩ := exists_frontier hg hstart
  obtain ⟨hid, hperm⟩ := take?_eq_some htake
  have hbegin : Exhaustive g [] (nodes g g.allLinks) [] :=
    ⟨fun a ha => .inr (waiting_nodes g _ ▸ List.mem_map_of_mem ha), fun _ _ hnear => by cases hnear⟩
  have hall : Exhaustive g (reached start []) rest [node.links] := by
    rw [hlinks]
    exact hbegin.addFound hg hstart hperm hid
  exact ⟨node, rest, htake, hlinks, hfrontier, hall⟩

private theorem spanningTree_closed (hg : g.WellFormed) (hstart : start ∈ g.actors) {link : Link}
    (hlink : link.channel ∈ g.channels)
    (hnear : link.near.actor ∈ reached start (spanningTree g start)) :
    link.far.actor ∈ reached start (spanningTree g start) := by
  obtain ⟨node, rest, htake, -, hfrontier, hall⟩ := exists_exhaustive hg hstart
  rw [spanningTree, htake] at hnear ⊢
  exact explore_closed hg rest [node.links] hfrontier hall link hlink hnear

/-- A spanning tree reaches every actor that is joined to its start. -/
theorem mem_reached_of_joined (hg : g.WellFormed) (hstart : start ∈ g.actors) {a : Actor}
    (h : Joined g start a) : a ∈ reached start (spanningTree g start) := by
  obtain ⟨walk, hwalk, hchannels⟩ := h
  have hclosed : ∀ b ∈ reached start (spanningTree g start), Leads b walk a →
      a ∈ reached start (spanningTree g start) := by
    clear hwalk
    induction walk with
    | nil => exact fun b hb hleads => hleads ▸ hb
    | cons link walk ih =>
      obtain ⟨hlink, hrest⟩ := List.forall_mem_cons.mp hchannels
      rintro b hb ⟨rfl, hleads⟩
      exact ih hrest _ (spanningTree_closed hg hstart hlink hb) hleads
  exact hclosed start List.mem_cons_self hwalk

theorem Tree.joined {tree : List Link} (hg : g.WellFormed) (h : Tree g start tree) {a : Actor}
    (ha : a ∈ reached start tree) : Joined g start a :=
  ⟨_, h.leads_pathTo hg ha,
    fun link hlink => h.channel_mem link ((pathTo_sublist _ a).subset hlink)⟩

/-- The actors that the counts were carried to are joined to each other. -/
theorem Spread.joined {fractions : Fractions} (hg : g.WellFormed) (h : Spread g start fractions)
    {a b : Actor} (ha : a ∈ g.actors) (hb : b ∈ g.actors) : Joined g a b :=
  (h.tree.joined hg (h.mem_reached a ha)).symm.trans (h.tree.joined hg (h.mem_reached b hb))

end Balance

end Dataflow
