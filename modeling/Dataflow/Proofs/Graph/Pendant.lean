import Dataflow.Proofs.Graph.Growth

namespace Dataflow.Graph

private theorem filter_eq_of_prefix {α : Type} {l l' : List α} {p : α → Bool} (h : l <+: l')
    (hnodup : l'.Nodup) (hp : ∀ a ∈ l', p a = true ↔ a ∈ l) : l'.filter p = l := by
  obtain ⟨more, rfl⟩ := h
  have hold : l.filter p = l :=
    List.filter_eq_self.mpr fun a ha => (hp a (List.mem_append_left _ ha)).mpr ha
  have hnew : more.filter p = [] := by
    refine List.filter_eq_nil_iff.mpr fun a ha hpa => ?_
    have hin := (hp a (List.mem_append_right _ ha)).mp hpa
    exact (List.nodup_append.mp hnodup).2.2 a hin a ha rfl
  rw [List.filter_append, hold, hnew, List.append_nil]

/-- A graph that has grown by actors that hang on those that were there before them. -/
structure Pendant (g g' : Graph) : Prop where
  grown : g.Grown g'
  next_le : g.nextHandle ≤ g'.nextHandle
  actor_mem : ∀ a ∈ g'.actors, a.id < g.nextHandle → a ∈ g.actors
  channels_new : ∀ c ∈ g'.channels, c ∈ g.channels ∨
    g.nextHandle ≤ c.target.actor.id ∧ c.source.actor.id < c.target.actor.id
  target_inj : ∀ c ∈ g'.channels, ∀ d ∈ g'.channels, g.nextHandle ≤ c.target.actor.id →
    c.target.actor = d.target.actor → c = d
  exists_channel : ∀ a ∈ g'.actors, g.nextHandle ≤ a.id → ∃ c ∈ g'.channels, c.target.actor = a

/-- Whether a link is of a channel that was there before anything was hung on the graph. -/
def isOld (g : Graph) (l : Link) : Bool :=
  l.channel.target.actor.id < g.nextHandle

namespace Pendant

variable {g g' g'' : Graph}

theorem refl (hg : g.WellFormed) : Pendant g g where
  grown := ⟨hg, .refl g⟩
  next_le := Nat.le_refl _
  actor_mem := fun _ ha _ => ha
  channels_new := fun _ hc => .inl hc
  target_inj := by
    intro c hc _ _ hnew
    have hlt := hg.actor_id_lt (List.mem_map_of_mem (hg.joins c hc .input).actor_mem)
    exact absurd hlt (Nat.not_lt.mpr hnew)
  exists_channel := by
    intro a ha hnew
    exact absurd (hg.actor_id_lt (List.mem_map_of_mem ha)) (Nat.not_lt.mpr hnew)

/-- Ports may be added. -/
theorem of_eq (h : Pendant g g') (hgrown : g.Grown g'') (hnext : g'.nextHandle ≤ g''.nextHandle)
    (hactors : g''.actors = g'.actors) (hchannels : g''.channels = g'.channels) : Pendant g g'' where
  grown := hgrown
  next_le := Nat.le_trans h.next_le hnext
  actor_mem := hactors ▸ h.actor_mem
  channels_new := hchannels ▸ h.channels_new
  target_inj := hchannels ▸ h.target_inj
  exists_channel := by
    rw [hactors, hchannels]
    exact h.exists_channel

section Consequences

variable (hg : g.WellFormed) (h : Pendant g g')
include hg h

private theorem mem_actors_iff {a : Actor} (ha : a ∈ g'.actors) :
    a ∈ g.actors ↔ a.id < g.nextHandle :=
  ⟨fun hold => hg.actor_id_lt (List.mem_map_of_mem hold), h.actor_mem a ha⟩

theorem mem_channels_iff {c : Channel} (hc : c ∈ g'.channels) :
    c ∈ g.channels ↔ c.target.actor.id < g.nextHandle := by
  constructor
  · exact fun hold => hg.actor_id_lt (List.mem_map_of_mem (hg.joins c hold .input).actor_mem)
  · intro hlt
    obtain hold | ⟨hnew, -⟩ := h.channels_new c hc
    · exact hold
    · exact absurd hlt (Nat.not_lt.mpr hnew)

theorem filter_actors : g'.actors.filter (fun a => a.id < g.nextHandle) = g.actors := by
  refine filter_eq_of_prefix h.grown.2.actors h.grown.1.nodup_actor_ids.of_map fun a ha => ?_
  rw [decide_eq_true_iff, h.mem_actors_iff hg ha]

theorem filter_channels :
    g'.channels.filter (fun c => c.target.actor.id < g.nextHandle) = g.channels := by
  refine filter_eq_of_prefix h.grown.2.channels h.grown.1.nodup_channel_ids.of_map fun c hc => ?_
  rw [decide_eq_true_iff, h.mem_channels_iff hg hc]

private theorem filter_links (a : Actor) (direction : Direction) :
    (g'.links a direction).filter g.isOld = g.links a direction := by
  rw [links, links, h.grown.1.linked_eq, hg.linked_eq, List.filter_map, ← h.filter_channels hg,
    List.filter_comm]
  rfl

theorem filter_allLinks (a : Actor) : (g'.allLinks a).filter g.isOld = g.allLinks a := by
  rw [allLinks, List.filter_append, h.filter_links hg, h.filter_links hg, allLinks]

private theorem isOld_iff {l : Link} (hl : l.channel ∈ g'.channels) :
    g.isOld l = true ↔ l.channel ∈ g.channels := by
  rw [isOld, decide_eq_true_iff, h.mem_channels_iff hg hl]

/-- An old link has old actors at both ends. -/
theorem id_lt_of_isOld {l : Link} (hl : l.channel ∈ g'.channels) (hold : g.isOld l = true) :
    l.near.actor.id < g.nextHandle ∧ l.far.actor.id < g.nextHandle := by
  have hmem := (h.isOld_iff hg hl).mp hold
  exact ⟨hg.actor_id_lt (List.mem_map_of_mem (hg.joins _ hmem l.direction).actor_mem),
    hg.actor_id_lt (List.mem_map_of_mem (hg.far_mem hmem))⟩

/-- A new actor has new links only. -/
theorem filter_allLinks_eq_nil {a : Actor} (ha : a ∈ g'.actors) (hnew : g.nextHandle ≤ a.id) :
    (g'.allLinks a).filter g.isOld = [] := by
  refine List.filter_eq_nil_iff.mpr fun l hl hold => ?_
  obtain ⟨hl, hnear⟩ := (h.grown.1.mem_allLinks ha).mp hl
  have hlt := (h.id_lt_of_isOld hg hl hold).1
  rw [hnear] at hlt
  exact absurd hlt (Nat.not_lt.mpr hnew)

end Consequences

end Pendant

end Dataflow.Graph
