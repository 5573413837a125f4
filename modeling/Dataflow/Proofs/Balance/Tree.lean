import Dataflow.Balance.SpanningTree
import Dataflow.Proofs.Graph.Search
import Dataflow.Proofs.Graph.Walk
import Mathlib.Data.List.Perm.Subperm

namespace Dataflow.Balance

open Search

/-- The actors that the links of a tree reach, in the order in which they are reached. -/
def reached (start : Actor) (tree : List Link) : List Actor :=
  start :: tree.map (·.far.actor)

/-- Links of a graph that form a tree, the last one followed at the end. -/
inductive Tree (g : Graph) (start : Actor) : List Link → Prop
  | root (h : start ∈ g.actors) : Tree g start []
  | grow {tree : List Link} {link : Link} (h : Tree g start tree)
    (hchannel : link.channel ∈ g.channels) (hnear : link.near.actor ∈ reached start tree)
    (hfar : link.far.actor ∉ reached start tree) : Tree g start (tree ++ [link])

theorem reached_concat (start : Actor) (tree : List Link) (link : Link) :
    reached start (tree ++ [link]) = reached start tree ++ [link.far.actor] := by
  simp [reached]

theorem mem_reached_of_mem {start : Actor} {tree : List Link} {link : Link} (h : link ∈ tree) :
    link.far.actor ∈ reached start tree :=
  List.mem_cons_of_mem _ (List.mem_map_of_mem h)

namespace Tree

variable {g : Graph} {start : Actor} {tree : List Link}

theorem channel_mem (h : Tree g start tree) : ∀ link ∈ tree, link.channel ∈ g.channels := by
  induction h with
  | root _ => simp
  | grow _ hchannel _ _ ih =>
    intro link hlink
    obtain hlink | hlink := List.mem_append.mp hlink
    · exact ih link hlink
    · rw [List.mem_singleton.mp hlink]
      exact hchannel

private theorem near_mem (h : Tree g start tree) :
    ∀ link ∈ tree, link.near.actor ∈ reached start tree := by
  induction h with
  | root _ => simp
  | grow _ _ hnear _ ih =>
    intro link hlink
    rw [reached_concat]
    apply List.mem_append_left
    obtain hlink | hlink := List.mem_append.mp hlink
    · exact ih link hlink
    · rw [List.mem_singleton.mp hlink]
      exact hnear

theorem nodup_reached (h : Tree g start tree) : (reached start tree).Nodup := by
  induction h with
  | root _ => simp [reached]
  | grow _ _ _ hfar ih =>
    rw [reached_concat, ← List.concat_eq_append]
    exact ih.concat hfar

theorem reached_subset (hg : g.WellFormed) (h : Tree g start tree) :
    reached start tree ⊆ g.actors := by
  induction h with
  | root hstart => simpa [reached] using hstart
  | @grow tree link _ hchannel _ _ ih =>
    rw [reached_concat, List.append_subset]
    refine ⟨ih, ?_⟩
    intro a ha
    rw [List.mem_singleton.mp ha]
    exact hg.far_mem hchannel

theorem nodup_reached_ids (hg : g.WellFormed) (h : Tree g start tree) :
    ((reached start tree).map (·.id)).Nodup :=
  h.nodup_reached.map_on fun _ ha _ hb hid =>
    hg.actor_eq_of_id (h.reached_subset hg ha) (h.reached_subset hg hb) hid

/-- A tree with as many actors as the graph reaches all of them. -/
theorem mem_reached_of_length (hg : g.WellFormed) (h : Tree g start tree)
    (hlength : (reached start tree).length = g.actors.length) {a : Actor} (ha : a ∈ g.actors) :
    a ∈ reached start tree := by
  have hsubperm := List.subperm_of_subset h.nodup_reached (h.reached_subset hg)
  exact (hsubperm.perm_of_length_le (Nat.le_of_eq hlength.symm)).mem_iff.mpr ha

/-- Both ends of a channel are reached once it was followed, so it is not followed again. -/
theorem nodup_channels (h : Tree g start tree) : (tree.map (·.channel)).Nodup := by
  induction h with
  | root _ => simp
  | @grow tree link h _ _ hfar ih =>
    rw [List.map_append, List.map_singleton, ← List.concat_eq_append]
    refine ih.concat fun hmem => hfar ?_
    obtain ⟨old, hold, hchannel⟩ := List.mem_map.mp hmem
    obtain ⟨-, hend⟩ | ⟨-, hend⟩ := Link.ends_eq_of_channel_eq hchannel.symm
    · rw [hend]
      exact mem_reached_of_mem hold
    · rw [hend]
      exact h.near_mem old hold

end Tree

/-- What a search that reached some actors has ahead of it: the others, and links to follow. -/
structure Frontier (g : Graph) (found : List Actor) (pending : List Node)
    (frames : List (List Link)) : Prop where
  waiting_mem : ∀ node ∈ pending, node.actor ∈ g.actors ∧ node.links = g.allLinks node.actor
  not_found : ∀ node ∈ pending, node.actor ∉ found
  nodup_waiting : (waiting pending).Nodup
  leads : ∀ frame ∈ frames, ∀ link ∈ frame, link.channel ∈ g.channels ∧ link.near.actor ∈ found

namespace Frontier

variable {g : Graph} {found : List Actor} {pending rest : List Node} {node : Node}
  {frames : List (List Link)} {links : List Link} {link : Link}

theorem popFrame (h : Frontier g found pending ([] :: frames)) : Frontier g found pending frames :=
  { h with leads := fun frame hframe => h.leads frame (List.mem_cons_of_mem _ hframe) }

theorem skipLink (h : Frontier g found pending ((link :: links) :: frames)) :
    Frontier g found pending (links :: frames) where
  waiting_mem := h.waiting_mem
  not_found := h.not_found
  nodup_waiting := h.nodup_waiting
  leads := by
    intro frame hframe l hl
    obtain rfl | hframe := List.mem_cons.mp hframe
    · exact h.leads _ List.mem_cons_self l (List.mem_cons_of_mem _ hl)
    · exact h.leads frame (List.mem_cons_of_mem _ hframe) l hl

/-- The actor that is taken is the one at the far end of the link. -/
theorem taken_eq (hg : g.WellFormed) (h : Frontier g found pending ((link :: links) :: frames))
    (htake : take? link.far.actor pending = some (node, rest)) : node.actor = link.far.actor := by
  have hnode := h.waiting_mem node (mem_of_take? htake)
  have hlink := h.leads _ List.mem_cons_self link List.mem_cons_self
  have hfar := hg.far_mem hlink.1
  exact hg.actor_eq_of_id hnode.1 hfar (take?_eq_some htake).1

theorem far_notMem (hg : g.WellFormed) (h : Frontier g found pending ((link :: links) :: frames))
    (htake : take? link.far.actor pending = some (node, rest)) : link.far.actor ∉ found := by
  rw [← h.taken_eq hg htake]
  exact h.not_found node (mem_of_take? htake)

theorem followLink (hg : g.WellFormed) (h : Frontier g found pending ((link :: links) :: frames))
    (htake : take? link.far.actor pending = some (node, rest)) :
    Frontier g (found ++ [link.far.actor]) rest (node.links :: links :: frames) := by
  have hactor := h.taken_eq hg htake
  obtain ⟨-, hperm⟩ := take?_eq_some htake
  have hin : ∀ other ∈ rest, other ∈ pending :=
    fun other hother => hperm.mem_iff.mpr (List.mem_cons_of_mem _ hother)
  have hnodup : (waiting (node :: rest)).Nodup := (hperm.map _).nodup_iff.mp h.nodup_waiting
  obtain ⟨hnew, hrest⟩ := List.nodup_cons.mp hnodup
  have hnode := h.waiting_mem node (mem_of_take? htake)
  refine ⟨fun other hother => h.waiting_mem other (hin other hother), ?_, hrest, ?_⟩
  · intro other hother hfound
    obtain hfound | hfound := List.mem_append.mp hfound
    · exact h.not_found other (hin other hother) hfound
    · rw [List.mem_singleton, ← hactor] at hfound
      exact hnew (List.mem_map.mpr ⟨other, hother, congrArg Actor.id hfound⟩)
  · intro frame hframe l hl
    obtain rfl | hframe := List.mem_cons.mp hframe
    · rw [hnode.2, hg.mem_allLinks hnode.1, hactor] at hl
      rw [hl.2]
      exact ⟨hl.1, List.mem_append_right _ (List.mem_singleton_self _)⟩
    · have hold := h.skipLink.leads frame hframe l hl
      exact ⟨hold.1, List.mem_append_left _ hold.2⟩

end Frontier

private theorem explore_tree {g : Graph} (hg : g.WellFormed) {start : Actor} (pending : List Node)
    (frames : List (List Link)) {sofar : List Link} (htree : Tree g start sofar)
    (h : Frontier g (reached start sofar) pending frames) :
    Tree g start (sofar ++ explore pending frames) := by
  -- By the recursion of the search: the links followed so far grow with every new actor.
  induction pending, frames using explore.induct generalizing sofar with
  | case1 pending => simpa [explore] using htree
  | case2 pending frames ih =>
    rw [explore]
    exact ih htree h.popFrame
  | case3 pending link links frames htake ih =>
    rw [explore, htake]
    exact ih htree h.skipLink
  | case4 pending link links frames node rest htake ih =>
    have hlink := h.leads _ List.mem_cons_self link List.mem_cons_self
    have hgrown := htree.grow hlink.1 hlink.2 (h.far_notMem hg htake)
    have hnext := h.followLink hg htake
    rw [← reached_concat] at hnext
    rw [explore, htake]
    show Tree g start (sofar ++ link :: explore rest (node.links :: links :: frames))
    rw [List.append_cons]
    exact ih hgrown hnext

/-- A search begins with the start, whose links are to be followed, and all others wait. -/
theorem exists_frontier {g : Graph} (hg : g.WellFormed) {start : Actor}
    (hstart : start ∈ g.actors) :
    ∃ node rest, take? start (nodes g g.allLinks) = some (node, rest) ∧
      node.links = g.allLinks start ∧ Frontier g (reached start []) rest [node.links] := by
  cases htake : take? start (nodes g g.allLinks) with
  | none =>
    refine absurd (List.mem_map_of_mem hstart) (?_ : start.id ∉ g.actors.map (·.id))
    rw [← waiting_nodes g g.allLinks]
    exact take?_eq_none htake
  | some taken =>
    obtain ⟨node, rest⟩ := taken
    obtain ⟨hid, hperm⟩ := take?_eq_some htake
    have hall : ∀ other ∈ nodes g g.allLinks,
        other.actor ∈ g.actors ∧ other.links = g.allLinks other.actor := by
      intro other hother
      obtain ⟨a, ha, rfl⟩ := List.mem_map.mp hother
      exact ⟨ha, rfl⟩
    have hin : ∀ other ∈ node :: rest, other ∈ nodes g g.allLinks :=
      fun other hother => hperm.mem_iff.mpr hother
    have hnodup : (waiting (node :: rest)).Nodup := by
      rw [waiting, ← (hperm.map _).nodup_iff, ← waiting, waiting_nodes]
      exact hg.nodup_actor_ids
    obtain ⟨hnew, hrest⟩ := List.nodup_cons.mp hnodup
    have hnode := hall node (hin node List.mem_cons_self)
    have hactor := hg.actor_eq_of_id hnode.1 hstart hid
    refine ⟨node, rest, rfl, by rw [hnode.2, hactor], ?_⟩
    refine ⟨fun other hother => hall other (hin other (List.mem_cons_of_mem _ hother)), ?_,
      hrest, ?_⟩
    · intro other hother hfound
      rw [reached, List.map_nil, List.mem_singleton, ← hactor] at hfound
      exact hnew (List.mem_map.mpr ⟨other, hother, congrArg Actor.id hfound⟩)
    · intro frame hframe l hl
      rw [List.mem_singleton.mp hframe, hnode.2, hactor, hg.mem_allLinks hstart] at hl
      rw [hl.2]
      exact ⟨hl.1, List.mem_cons_self⟩

theorem spanningTree_tree {g : Graph} (hg : g.WellFormed) {start : Actor}
    (hstart : start ∈ g.actors) : Tree g start (spanningTree g start) := by
  obtain ⟨node, rest, htake, -, hfrontier⟩ := exists_frontier hg hstart
  rw [spanningTree, htake]
  exact explore_tree hg rest [node.links] (.root hstart) hfrontier

end Dataflow.Balance
