import Dataflow.Graph.Store
import Dataflow.Proofs.Graph.Preservation

namespace Dataflow.Graph

namespace Tables

private theorem takeOff_of_mem {α : Type} [DecidableEq α] {item : α} {items : List α}
    (h : item ∈ items) : takeOff item items = some (items.erase item) :=
  if_pos h

/-- The tables without a link, wherever it stands. -/
def without (t : Tables) (l : Link) : Tables :=
  { t with links := fun id direction => (t.links id direction).erase l }

/-- Every link stands on the list of its own actor and direction, and on no other. -/
def InPlace (t : Tables) : Prop :=
  ∀ id direction, ∀ l ∈ t.links id direction, id = l.near.actor.id ∧ direction = l.direction

namespace InPlace

variable {t : Tables} (ht : t.InPlace)
include ht

private theorem without (l : Link) : (t.without l).InPlace :=
  fun id direction k hk => ht id direction k (List.mem_of_mem_erase hk)

/-- A link that is taken off its own list is on none any more. -/
theorem dropLink_eq {l : Link} (hmem : l ∈ t.links l.near.actor.id l.direction) :
    t.dropLink l = some (t.without l) := by
  rw [dropLink, takeOff_of_mem hmem]
  simp only [Option.bind_eq_bind, Option.bind_some, Option.pure_def, Option.some.injEq]
  refine Tables.ext rfl rfl rfl rfl rfl rfl rfl rfl rfl ?_ rfl
  funext id direction
  show (if _ then _ else _) = (t.links id direction).erase l
  split
  · rename_i hplace
    rw [hplace.1, hplace.2]
  · rename_i hplace
    exact (List.erase_of_not_mem fun hl => hplace (ht id direction l hl)).symm

end InPlace

end Tables

section Steps

variable {g : Graph} {a : Actor} {c : Channel} {l : Link} {id : Handle} {direction : Direction}

/-- The graph has no other channel under the handle of this one. It has this one, or has lost it. -/
def Identifies (g : Graph) (c : Channel) : Prop :=
  ∀ d ∈ g.channels, d.id = c.id → d = c

theorem WellFormed.identifies (hg : g.WellFormed) (hc : c ∈ g.channels) : g.Identifies c :=
  fun _ hd heq => hg.channel_eq_of_id hd hc heq

private theorem Identifies.removeChannel (hc : g.Identifies c) (id : Handle) :
    (g.removeChannel id).Identifies c :=
  fun d hd => hc d (List.mem_of_mem_filter hd)

theorem mem_tables_links :
    l ∈ g.tables.links id direction ↔
      l.channel ∈ g.linked ∧ l.direction = direction ∧ l.near.actor.id = id := by
  simp only [tables, List.mem_map, List.mem_filter, beq_iff_eq]
  constructor
  · rintro ⟨c, ⟨hc, hid⟩, rfl⟩
    exact ⟨hc, rfl, hid⟩
  · rintro ⟨hc, rfl, rfl⟩
    exact ⟨l.channel, ⟨hc, rfl⟩, rfl⟩

private theorem inPlace_tables (g : Graph) : g.tables.InPlace := by
  intro id direction l hl
  obtain ⟨-, hdirection, hid⟩ := mem_tables_links.mp hl
  exact ⟨hid.symm, hdirection.symm⟩

private theorem WellFormed.nodup_tables_links (hg : g.WellFormed) :
    (g.tables.links id direction).Nodup := by
  have hlinked : g.linked.Nodup := hg.linked_eq ▸ hg.nodup_channel_ids.of_map _
  exact (hlinked.filter _).map fun _ _ h => congrArg Link.channel h

/-- Without a channel an actor has its links in their order, but for the one at that channel. -/
theorem WellFormed.tables_links_unlink (hg : g.WellFormed) (hc : c ∈ g.channels) :
    (g.unlink c.id).tables.links id direction =
      (g.tables.links id direction).erase ⟨c, direction⟩ := by
  rw [hg.nodup_tables_links.erase_eq_filter]
  simp only [tables, Graph.unlink, List.filter_map, List.filter_filter]
  congr 1
  refine List.filter_congr fun d hd => ?_
  have hsame : d.id = c.id ↔ d = c := ⟨hg.identifies hc d (hg.linked_eq ▸ hd), congrArg Channel.id⟩
  rw [Bool.eq_iff_iff]
  simp [hsame, and_comm]

theorem filter_id_ne_eq_self {channels : List Channel} (h : ∀ d ∈ channels, d.id ≠ id) :
    channels.filter (·.id != id) = channels :=
  List.filter_eq_self.mpr fun d hd => bne_iff_ne.mpr (h d hd)

private theorem tables_bound_unlink (c : Channel) (id : Handle) :
    (g.unlink c.id).tables.bound id = (g.tables.bound id && id != c.id) := by
  simp only [tables, Graph.unlink, List.any_filter]
  by_cases h : id = c.id
  · subst h
    simp
  · rw [bne_iff_ne.mpr h, Bool.and_true]
    congr 1
    funext d
    by_cases hd : d.id = id <;> simp [hd, h]

/-- A link that looks the other way is on none of these lists. -/
theorem notMem_tables_links (h : l.direction ≠ direction) : l ∉ g.tables.links id direction :=
  fun hl => h (mem_tables_links.mp hl).2.1

/-- A channel has one link in each direction, so no list misses more than one of the two. -/
theorem WellFormed.links_without (hg : g.WellFormed) (hc : c ∈ g.channels) :
    ((g.tables.without ⟨c, .output⟩).without ⟨c, .input⟩).links = (g.unlink c.id).tables.links := by
  funext id direction
  rw [hg.tables_links_unlink hc]
  show ((g.tables.links id direction).erase ⟨c, .output⟩).erase ⟨c, .input⟩ = _
  cases direction with
  | output =>
    exact List.erase_of_not_mem fun hl => notMem_tables_links (by simp) (List.mem_of_mem_erase hl)
  | input => rw [List.erase_of_not_mem (notMem_tables_links (l := ⟨c, .output⟩) (by simp))]

/-- Both ends of a channel are found, each on the list on which it stands. -/
theorem WellFormed.tables_unlink (hg : g.WellFormed) (hc : c ∈ g.channels) :
    g.tables.unlink c = some (g.unlink c.id).tables := by
  have hlinked : c ∈ g.linked := hg.linked_eq ▸ hc
  have hbound : g.tables.bound c.id = true :=
    List.any_eq_true.mpr ⟨c, hlinked, beq_self_eq_true _⟩
  have hsource : (⟨c, .output⟩ : Link) ∈ g.tables.links c.source.actor.id .output :=
    mem_tables_links.mpr ⟨hlinked, rfl, rfl⟩
  have htarget : (⟨c, .input⟩ : Link) ∈ g.tables.links c.target.actor.id .input :=
    mem_tables_links.mpr ⟨hlinked, rfl, rfl⟩
  -- The two ends of a self-loop are with one actor, but not on one list.
  have hother :
      (⟨c, .input⟩ : Link) ∈ (g.tables.without ⟨c, .output⟩).links c.target.actor.id .input :=
    (List.mem_erase_of_ne (by simp)).mpr htarget
  have hplace := inPlace_tables g
  have houtput := hplace.dropLink_eq hsource
  have hinput := (hplace.without ⟨c, .output⟩).dropLink_eq hother
  rw [Tables.unlink, if_pos hbound, houtput]
  simp only [Option.bind_eq_bind, Option.bind_some, hinput, Option.pure_def, Option.some.injEq]
  refine Tables.ext rfl rfl rfl rfl rfl rfl rfl rfl rfl (hg.links_without hc) ?_
  funext id
  exact (tables_bound_unlink c id).symm

/-- A channel can be removed, also for the second time. -/
theorem WellFormed.tables_removeChannel (hg : g.WellFormed) (hc : g.Identifies c) :
    g.tables.removeChannel c = some (g.removeChannel c.id).tables := by
  by_cases hmem : c ∈ g.channels
  · rw [Tables.removeChannel, hg.tables_unlink hmem]
    rfl
  · have hgone : ∀ d ∈ g.linked, d.id ≠ c.id := by
      intro d hd heq
      rw [hg.linked_eq] at hd
      exact hmem (hc d hd heq ▸ hd)
    have hbound : g.tables.bound c.id = false := by
      simpa [tables] using hgone
    have hunlink : g.unlink c.id = g := by
      rw [Graph.unlink, filter_id_ne_eq_self hgone]
    rw [Tables.removeChannel, Tables.unlink, hbound, Graph.removeChannel, hunlink]
    rfl

/-- Channels are removed one after the other. The graph that they leave has its actors still. -/
theorem WellFormed.foldlM_tables_removeChannel (hg : g.WellFormed) {channels : List Channel}
    (hchannels : ∀ c ∈ channels, g.Identifies c) :
    channels.foldlM Tables.removeChannel g.tables =
        some (channels.foldl (fun g c => g.removeChannel c.id) g).tables ∧
      (channels.foldl (fun g c => g.removeChannel c.id) g).WellFormed ∧
      (channels.foldl (fun g c => g.removeChannel c.id) g).actors = g.actors := by
  induction channels generalizing g with
  | nil => exact ⟨rfl, hg, rfl⟩
  | cons c channels ih =>
    obtain ⟨hc, hrest⟩ := List.forall_mem_cons.mp hchannels
    rw [List.foldlM_cons, hg.tables_removeChannel hc]
    exact ih (hg.withoutChannel c.id) fun d hd => (hrest d hd).removeChannel c.id

/-- Links to different channels lead to those that were not met before, in their order. -/
theorem foldl_meet {links : List Link} (hnodup : (links.map (·.channel.id)).Nodup)
    (seen : List Channel) :
    links.foldl Tables.meet seen =
      seen ++ (links.map (·.channel)).filter fun c => !seen.any (·.id == c.id) := by
  induction links generalizing seen with
  | nil => simp
  | cons l links ih =>
    obtain ⟨hnew, hrest⟩ := List.nodup_cons.mp hnodup
    rw [List.foldl_cons, ih hrest, Tables.meet, List.map_cons, List.filter_cons]
    cases hseen : seen.any (·.id == l.channel.id) with
    | true => rfl
    | false =>
      simp only [Bool.false_eq_true, if_false, Bool.not_false, if_true, List.append_assoc,
        List.singleton_append]
      congr 2
      -- None of the later links leads to the channel that was noted last.
      refine List.filter_congr fun c hc => ?_
      have hne : l.channel.id ≠ c.id := by
        rintro heq
        obtain ⟨k, hk, rfl⟩ := List.mem_map.mp hc
        exact hnew (List.mem_map.mpr ⟨k, hk, heq.symm⟩)
      simp [hne]

private theorem channels_of_tables_links :
    (g.tables.links id direction).map (·.channel) =
      g.linked.filter fun c => (c.endpoint direction).actor.id == id := by
  rw [tables, List.map_map]
  exact List.map_id _

/-- The channels along the links of an actor are those that it has. A self-loop is met at its input
and not again at its output. -/
theorem WellFormed.tables_channelsOf (hg : g.WellFormed) (a : Actor) :
    g.tables.channelsOf a = g.channelsOf a := by
  have hnodup (direction : Direction) :
      ((g.tables.links a.id direction).map (·.channel.id)).Nodup := by
    simp only [tables, List.map_map]
    exact (hg.linked_eq ▸ hg.nodup_channel_ids).sublist (List.filter_sublist.map _)
  have hinputs : (g.tables.links a.id .input).foldl Tables.meet [] =
      g.linked.filter fun c => c.target.actor.id == a.id := by
    rw [foldl_meet (hnodup .input), channels_of_tables_links, List.nil_append]
    exact List.filter_eq_self.mpr fun _ _ => rfl
  rw [Tables.channelsOf, Tables.channelsAlong, List.foldl_append, hinputs, foldl_meet (hnodup .output),
    channels_of_tables_links, List.filter_filter, channelsOf]
  congr 1
  refine List.filter_congr fun c hc => ?_
  have hmet : (g.linked.filter fun d => d.target.actor.id == a.id).any (·.id == c.id) =
      (c.target.actor.id == a.id) := by
    rw [Bool.eq_iff_iff, List.any_eq_true]
    constructor
    · rintro ⟨d, hd, hid⟩
      obtain ⟨hd, htarget⟩ := List.mem_filter.mp hd
      have hsame : d = c := hg.identifies (hg.linked_eq ▸ hc) d (hg.linked_eq ▸ hd) (eq_of_beq hid)
      exact hsame ▸ htarget
    · exact fun htarget => ⟨c, List.mem_filter.mpr ⟨hc, htarget⟩, beq_self_eq_true _⟩
  rw [hmet, Bool.and_comm]
  rfl

end Steps

section Actors

variable {g : Graph} {a : Actor} (hg : g.WellFormed) (ha : a ∈ g.actors)
include hg ha

theorem WellFormed.filter_id_ne_eq_erase : g.actors.filter (·.id != a.id) = g.actors.erase a := by
  rw [(hg.nodup_actor_ids.of_map _).erase_eq_filter]
  refine List.filter_congr fun b hb => ?_
  have hsame : b.id = a.id ↔ b = a := ⟨hg.actor_eq_of_id hb ha, congrArg Actor.id⟩
  rw [Bool.eq_iff_iff, bne_iff_ne, bne_iff_ne, ne_eq, hsame]

private theorem WellFormed.tables_named : g.tables.named a.name = some a.id := by
  have hfound := (find?_eq_some_iff_of_key hg.nodup_names (t := (·.name == a.name)) (by simp)).mpr
    ⟨ha, rfl⟩
  exact congrArg (Option.map (·.id)) hfound

/-- The name of an actor that is taken out is free, and all others keep their actors. -/
theorem WellFormed.named_dismissed (name : String) :
    { g with actors := g.actors.filter (·.id != a.id) }.tables.named name =
      if name = a.name then none else g.tables.named name := by
  obtain ⟨before, after, -, hactors, herase⟩ := List.exists_erase_eq ha
  have hnodup := hg.nodup_names
  rw [hactors, List.map_append, List.map_cons, List.perm_middle.nodup_iff, List.nodup_cons,
    ← List.map_append] at hnodup
  simp only [tables, hg.filter_id_ne_eq_erase ha, herase]
  split
  · rename_i hname
    rw [hname, Option.map_eq_none_iff, List.find?_eq_none]
    intro b hb heq
    exact hnodup.1 (eq_of_beq heq ▸ List.mem_map_of_mem hb)
  · rename_i hname
    have hother : (a.name == name) = false := beq_false_of_ne fun heq => hname heq.symm
    rw [hactors, List.find?_append, List.find?_append, List.find?_cons, hother]

private theorem WellFormed.tables_instances :
    g.tables.instances a.type = some ((g.instances a.type).map (·.id)) :=
  if_pos (List.contains_iff_mem.mpr (hg.types_known a ha))

/-- An actor that is taken out is missed by its own type only. -/
theorem WellFormed.instances_dismissed (type : String) :
    (({ g with actors := g.actors.filter (·.id != a.id) } : Graph).instances type).map (·.id) =
      if type = a.type then ((g.instances a.type).map (·.id)).erase a.id
      else (g.instances type).map (·.id) := by
  have hnodup : ((g.instances a.type).map (·.id)).Nodup :=
    hg.nodup_actor_ids.sublist (List.filter_sublist.map _)
  rw [hnodup.erase_eq_filter]
  simp only [instances, List.filter_map, List.filter_filter]
  split
  · rename_i htype
    subst htype
    congr 1
    refine List.filter_congr fun b _ => ?_
    rw [Bool.and_comm]
    rfl
  · rename_i htype
    congr 1
    refine List.filter_congr fun b hb => ?_
    have hstays : b.type = type → b.id ≠ a.id := by
      rintro rfl hid
      exact htype (congrArg Actor.type (hg.actor_eq_of_id hb ha hid))
    by_cases h : b.type = type <;> simp [h, hstays]

/-- An actor is found in every place from which it is taken off. -/
theorem WellFormed.tables_dismiss :
    g.tables.dismiss a = some { g with actors := g.actors.filter (·.id != a.id) }.tables := by
  have hinstance : a.id ∈ (g.instances a.type).map (·.id) :=
    List.mem_map_of_mem (List.mem_filter.mpr ⟨ha, beq_self_eq_true _⟩)
  have hname : g.tables.named a.name = some a.id := hg.tables_named ha
  have hactor : a ∈ g.tables.actors := ha
  simp only [Tables.dismiss, Tables.leaveType, Tables.freeName, Tables.leaveArena,
    hg.tables_instances ha, Option.bind_eq_bind, Option.bind_some, Option.pure_def, hname,
    Tables.takeOff_of_mem hinstance, Tables.takeOff_of_mem hactor, Option.some.injEq]
  refine Tables.ext rfl (hg.filter_id_ne_eq_erase ha).symm rfl rfl rfl rfl ?_ rfl ?_ rfl rfl
  · funext name
    exact (hg.named_dismissed ha name).symm
  · funext type
    simp only [tables, hg.instances_dismissed ha type]
    by_cases htype : type = a.type
    · subst htype
      rw [if_pos rfl, if_pos rfl, if_pos (List.contains_iff_mem.mpr (hg.types_known a ha))]
    · rw [if_neg htype, if_neg htype]

/-- Taking an actor out step by step finds all that is to be taken off, and comes to the tables of
the graph without the actor. -/
theorem WellFormed.tables_removeActor :
    g.tables.removeActor a = some (g.removeActor a).tables := by
  have hchannels : ∀ c ∈ g.channelsOf a, g.Identifies c := by
    intro c hc
    have hlinked := (g.mem_channelsOf.mp hc).1
    exact hg.identifies (hg.linked_eq ▸ hlinked)
  obtain ⟨hrun, hbare, hactors⟩ := hg.foldlM_tables_removeChannel hchannels
  rw [Tables.removeActor, hg.tables_channelsOf, hrun]
  exact hbare.tables_dismiss (hactors ▸ ha)

end Actors

end Dataflow.Graph
