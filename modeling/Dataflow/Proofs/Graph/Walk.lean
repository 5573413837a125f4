import Dataflow.Graph.Basic
import Mathlib.Data.List.Nodup

namespace Dataflow

@[simp]
theorem Link.near_opposite (l : Link) : l.opposite.near = l.far := rfl

@[simp]
theorem Link.far_opposite (l : Link) : l.opposite.far = l.near := by
  simp [Link.opposite, Link.far, Link.near]

/-- Two links of one channel look at it from the same end, or from opposite ends. -/
theorem Link.ends_eq_of_channel_eq {l k : Link} (h : l.channel = k.channel) :
    l.near = k.near ∧ l.far = k.far ∨ l.near = k.far ∧ l.far = k.near := by
  obtain ⟨c, direction⟩ := l
  obtain ⟨d, direction'⟩ := k
  obtain rfl : c = d := h
  cases direction <;> cases direction' <;> simp [Link.near, Link.far, Direction.opposite]

/-- The links lead from one actor to another: each begins at the actor at which the one before it
ends. -/
def Leads (a : Actor) : List Link → Actor → Prop
  | [], b => a = b
  | link :: walk, b => link.near.actor = a ∧ Leads link.far.actor walk b

/-- The two actors that a channel joins, one of them twice if it joins an actor to itself. -/
def Channel.ends (c : Channel) : List Actor :=
  [c.source.actor, c.target.actor]

/-- A walk back to where it began that meets no actor and no channel twice. -/
structure SimpleCycle (walk : List Link) : Prop where
  ne_nil : walk ≠ []
  closed : ∃ a, Leads a walk a
  nodup_actors : (walk.map (·.near.actor)).Nodup
  nodup_channels : (walk.map (·.channel)).Nodup

namespace Leads

variable {a b c : Actor} {walk further : List Link}

theorem append (h : Leads a walk b) (hfurther : Leads b further c) :
    Leads a (walk ++ further) c := by
  induction walk generalizing a with
  | nil => exact h ▸ hfurther
  | cons link walk ih => exact ⟨h.1, ih h.2⟩

theorem split (h : Leads a (walk ++ further) c) : ∃ b, Leads a walk b ∧ Leads b further c := by
  induction walk generalizing a with
  | nil => exact ⟨a, rfl, h⟩
  | cons link walk ih =>
    obtain ⟨b, hwalk, hfurther⟩ := ih h.2
    exact ⟨b, ⟨h.1, hwalk⟩, hfurther⟩

theorem reverse (h : Leads a walk b) : Leads b (walk.map Link.opposite).reverse a := by
  induction walk generalizing a with
  | nil => exact h.symm
  | cons link walk ih =>
    rw [List.map_cons, List.reverse_cons]
    have hback : Leads link.far.actor [link.opposite] a :=
      ⟨by rw [Link.near_opposite], by rw [Link.far_opposite]; exact h.1⟩
    exact (ih h.2).append hback

/-- The actors at which the links begin, and the end, are the start and the actors at which the
links end. -/
theorem nears_eq_fars (h : Leads a walk b) :
    walk.map (·.near.actor) ++ [b] = a :: walk.map (·.far.actor) := by
  induction walk generalizing a with
  | nil =>
    rw [h]
    rfl
  | cons link walk ih => rw [List.map_cons, List.cons_append, ih h.2, h.1, List.map_cons]

theorem end_mem (h : Leads a walk b) : b ∈ a :: walk.map (·.far.actor) := by
  rw [← h.nears_eq_fars]
  exact List.mem_append_right _ (List.mem_singleton_self b)

theorem end_unique (h : Leads a walk b) (h' : Leads a walk c) : b = c := by
  have heq := h.nears_eq_fars.trans h'.nears_eq_fars.symm
  simpa using heq

/-- A walk back to where it began leaves each actor as often as it enters it. -/
theorem nears_perm_fars (h : Leads a walk a) :
    (walk.map (·.near.actor)).Perm (walk.map (·.far.actor)) := by
  have hperm := List.perm_append_singleton a (walk.map (·.near.actor))
  rw [h.nears_eq_fars] at hperm
  exact hperm.symm.cons_inv

end Leads

private theorem ends_perm (walk : List Link) :
    ((walk.map (·.channel)).flatMap Channel.ends).Perm
      (walk.map (·.near.actor) ++ walk.map (·.far.actor)) := by
  induction walk with
  | nil => exact List.Perm.refl _
  | cons link walk ih =>
    have hlink : link.channel.ends.Perm [link.near.actor, link.far.actor] := by
      obtain ⟨c, direction⟩ := link
      cases direction with
      | output => exact List.Perm.refl _
      | input => exact List.Perm.swap _ _ _
    rw [List.map_cons, List.flatMap_cons]
    refine (hlink.append ih).trans ?_
    simp only [List.map_cons, List.cons_append, List.nil_append]
    exact List.perm_middle.symm.cons link.near.actor

/-- A simple cycle touches each of its actors twice. -/
theorem SimpleCycle.count_ends {walk : List Link} (h : SimpleCycle walk) {a : Actor}
    (ha : a ∈ (walk.map (·.channel)).flatMap Channel.ends) :
    ((walk.map (·.channel)).flatMap Channel.ends).count a = 2 := by
  obtain ⟨start, hclosed⟩ := h.closed
  have hperm := (ends_perm walk).trans (hclosed.nears_perm_fars.symm.append_left _)
  rw [hperm.mem_iff, List.mem_append, or_self] at ha
  rw [hperm.count_eq, List.count_append, List.count_eq_one_of_mem h.nodup_actors ha]

end Dataflow
