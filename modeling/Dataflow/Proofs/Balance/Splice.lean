import Dataflow.Proofs.Balance.Path

namespace Dataflow.Balance

/-- Two paths of a tree that lead from one actor to the ends of a channel and do not meet. -/
structure Fork (tree : List Link) (c : Channel) (fork : Actor) (outward back : List Link) :
    Prop where
  outward_subset : outward ⊆ tree
  back_subset : back ⊆ tree
  leads_outward : Leads fork outward c.target.actor
  leads_back : Leads fork back c.source.actor
  nodup_fars : (fork :: (outward ++ back).map (·.far.actor)).Nodup

/-- The walk out to the target of a channel, over the channel and back from its source. -/
def roundTrip (c : Channel) (outward back : List Link) : List Link :=
  outward ++ ⟨c, .input⟩ :: (back.map Link.opposite).reverse

private theorem map_channel_roundTrip (c : Channel) (outward back : List Link) :
    (roundTrip c outward back).map (·.channel) =
      outward.map (·.channel) ++ c :: (back.map (·.channel)).reverse := by
  simp [roundTrip, Function.comp_def, Link.opposite]

namespace Fork

variable {tree : List Link} {c : Channel} {fork : Actor} {outward back : List Link}

private theorem leads (h : Fork tree c fork outward back) :
    Leads fork (roundTrip c outward back) fork :=
  h.leads_outward.append ⟨rfl, h.leads_back.reverse⟩

private theorem nodup_nears (h : Fork tree c fork outward back) :
    ((roundTrip c outward back).map (·.near.actor)).Nodup := by
  have hback : (back.map Link.opposite).reverse.map (·.near.actor) =
      (back.map (·.far.actor)).reverse := by
    simp [Function.comp_def]
  have hnears : (roundTrip c outward back).map (·.near.actor) =
      (fork :: outward.map (·.far.actor)) ++ (back.map (·.far.actor)).reverse := by
    rw [roundTrip, List.map_append, List.map_cons, hback, ← h.leads_outward.nears_eq_fars,
      List.append_assoc]
    rfl
  rw [hnears, ((List.reverse_perm _).append_left _).nodup_iff, List.cons_append,
    ← List.map_append]
  exact h.nodup_fars

private theorem nodup_channels (h : Fork tree c fork outward back)
    (htree : (tree.map (·.channel)).Nodup)
    (hoff : c ∉ tree.map (·.channel)) : ((roundTrip c outward back).map (·.channel)).Nodup := by
  have hsubset : outward ++ back ⊆ tree := List.append_subset.mpr ⟨h.outward_subset, h.back_subset⟩
  have hsides : ((outward ++ back).map (·.channel)).Nodup := by
    refine List.Nodup.map_on (fun l hl k hk heq => ?_) (List.nodup_cons.mp h.nodup_fars).2.of_map
    exact List.inj_on_of_nodup_map htree (hsubset hl) (hsubset hk) heq
  have hnew : c ∉ (outward ++ back).map (·.channel) :=
    fun hmem => hoff (List.map_subset _ hsubset hmem)
  have hperm : ((roundTrip c outward back).map (·.channel)).Perm
      (c :: (outward ++ back).map (·.channel)) := by
    rw [map_channel_roundTrip, List.map_append]
    exact List.perm_middle.trans (((List.reverse_perm _).append_left _).cons c)
  rw [hperm.nodup_iff]
  exact List.nodup_cons.mpr ⟨hnew, hsides⟩

theorem simpleCycle (h : Fork tree c fork outward back) (htree : (tree.map (·.channel)).Nodup)
    (hoff : c ∉ tree.map (·.channel)) : SimpleCycle (roundTrip c outward back) where
  ne_nil := by simp [roundTrip]
  closed := ⟨fork, h.leads⟩
  nodup_actors := h.nodup_nears
  nodup_channels := h.nodup_channels htree hoff

end Fork

variable {g : Graph} {start a b : Actor} {tree shared as bs : List Link}

/-- Past the links that two paths of a tree share they have no actor in common. -/
theorem Tree.disjoint_sides (hg : g.WellFormed) (h : Tree g start tree)
    (ha : a ∈ reached start tree) (hb : b ∈ reached start tree)
    (has : pathTo tree a = shared ++ as) (hbs : pathTo tree b = shared ++ bs)
    (hheads : ∀ link ∈ as.head?, link ∉ bs.head?) :
    (as.map (·.far.actor)).Disjoint (bs.map (·.far.actor)) := by
  intro actor hactor hactor'
  obtain ⟨l, hl, hfar⟩ := List.mem_map.mp hactor
  obtain ⟨k, hk, hfar'⟩ := List.mem_map.mp hactor'
  obtain ⟨before, after, rfl⟩ := List.append_of_mem hl
  obtain ⟨before', after', rfl⟩ := List.append_of_mem hk
  rw [← List.append_assoc] at has hbs
  have hpath := h.pathTo_far hg ha has
  have hpath' := h.pathTo_far hg hb hbs
  rw [hfar] at hpath
  rw [hfar', hpath, List.append_assoc, List.append_assoc, List.append_cancel_left_eq] at hpath'
  -- The two sides begin alike up to this actor, so their first links are the same.
  obtain ⟨first, hfirst⟩ : ∃ first, (before ++ [l]).head? = some first := by
    cases before <;> simp
  have hhead (links more : List Link) (link : Link) :
      (links ++ link :: more).head? = (links ++ [link]).head? := by
    cases links <;> simp
  exact hheads first (by rw [hhead, hfirst]; rfl) (by rw [hhead, ← hpath', hfirst]; rfl)

private theorem Tree.nodup_path (h : Tree g start tree) (hpath : pathTo tree a = shared ++ as)
    {fork : Actor} (hfork : Leads start shared fork) :
    fork ∉ as.map (·.far.actor) ∧ (as.map (·.far.actor)).Nodup := by
  have hsublist := ((pathTo_sublist tree a).map (·.far.actor)).cons_cons start
  have hnodup := h.nodup_reached.sublist hsublist
  rw [hpath, List.map_append, ← List.cons_append, List.nodup_append] at hnodup
  exact ⟨fun hmem => hnodup.2.2 fork hfork.end_mem fork hmem rfl, hnodup.2.1⟩

theorem Tree.exists_fork (hg : g.WellFormed) (h : Tree g start tree) {c : Channel}
    (hsource : c.source.actor ∈ reached start tree)
    (htarget : c.target.actor ∈ reached start tree) :
    ∃ fork outward back, Fork tree c fork outward back ∧
      spliceCycle tree c = (roundTrip c outward back).map (·.channel) := by
  have hinj : ∀ l ∈ pathTo tree c.source.actor, ∀ k ∈ pathTo tree c.target.actor,
      l.channel.id = k.channel.id → l = k := by
    intro l hl k hk hid
    have hl := (pathTo_sublist tree _).subset hl
    have hk := (pathTo_sublist tree _).subset hk
    have hchannel := hg.channel_eq_of_id (h.channel_mem l hl) (h.channel_mem k hk) hid
    exact List.inj_on_of_nodup_map h.nodup_channels hl hk hchannel
  obtain ⟨shared, hback, houtward, hheads⟩ := dropShared_spec hinj
  have hsplice : spliceCycle tree c = (roundTrip c
      (dropShared (pathTo tree c.source.actor) (pathTo tree c.target.actor)).2
      (dropShared (pathTo tree c.source.actor) (pathTo tree c.target.actor)).1).map
        (·.channel) := by
    rw [map_channel_roundTrip]
    rfl
  generalize (dropShared (pathTo tree c.source.actor) (pathTo tree c.target.actor)).1 = back at *
  generalize (dropShared (pathTo tree c.source.actor) (pathTo tree c.target.actor)).2 = outward
    at *
  -- Both paths begin with the shared links, so they come to the same actor before they part.
  have hleads := h.leads_pathTo hg htarget
  have hleads' := h.leads_pathTo hg hsource
  rw [houtward] at hleads
  rw [hback] at hleads'
  obtain ⟨fork, hshared, hleads⟩ := hleads.split
  obtain ⟨fork', hshared', hleads'⟩ := hleads'.split
  obtain rfl := hshared.end_unique hshared'
  obtain ⟨hfork, hnodup⟩ := h.nodup_path houtward hshared
  obtain ⟨hfork', hnodup'⟩ := h.nodup_path hback hshared
  have hdisjoint := h.disjoint_sides hg hsource htarget hback houtward hheads
  have hsub : pathTo tree c.target.actor ⊆ tree := (pathTo_sublist tree _).subset
  have hsub' : pathTo tree c.source.actor ⊆ tree := (pathTo_sublist tree _).subset
  rw [houtward, List.append_subset] at hsub
  rw [hback, List.append_subset] at hsub'
  refine ⟨fork, outward, back, ⟨hsub.2, hsub'.2, hleads, hleads', ?_⟩, hsplice⟩
  rw [List.nodup_cons, List.map_append, List.mem_append, not_or]
  exact ⟨⟨hfork, hfork'⟩, hnodup.append hnodup' fun _ hout hback => hdisjoint hback hout⟩

end Dataflow.Balance
