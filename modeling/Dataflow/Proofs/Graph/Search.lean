import Dataflow.Graph.Search
import Dataflow.Proofs.Graph.WellFormed

namespace Dataflow.Search

/-- The handles of the actors that wait. -/
def waiting (pending : List Node) : List Handle :=
  pending.map (·.actor.id)

theorem take?_eq_some {a : Actor} {pending rest : List Node} {node : Node}
    (h : take? a pending = some (node, rest)) :
    node.actor.id = a.id ∧ pending.Perm (node :: rest) := by
  induction pending generalizing rest with
  | nil => simp [take?] at h
  | cons head tail ih =>
    rw [take?] at h
    split at h
    · rename_i hid
      simp only [Option.some.injEq, Prod.mk.injEq] at h
      obtain ⟨rfl, rfl⟩ := h
      exact ⟨hid, List.Perm.refl _⟩
    · obtain ⟨⟨found, others⟩, htake, heq⟩ := Option.map_eq_some_iff.mp h
      simp only [Prod.mk.injEq] at heq
      obtain ⟨rfl, rfl⟩ := heq
      obtain ⟨hid, hperm⟩ := ih htake
      exact ⟨hid, (hperm.cons head).trans (List.Perm.swap found head others)⟩

theorem mem_of_take? {a : Actor} {pending rest : List Node} {node : Node}
    (h : take? a pending = some (node, rest)) : node ∈ pending :=
  (take?_eq_some h).2.mem_iff.mpr List.mem_cons_self

/-- The actors that are left keep their order. -/
theorem take?_rest_eq {a : Actor} {pending rest : List Node} {node : Node}
    (h : take? a pending = some (node, rest)) (hnodup : (waiting pending).Nodup) :
    rest = pending.filter (·.actor.id != a.id) := by
  induction pending generalizing rest with
  | nil => simp [take?] at h
  | cons head tail ih =>
    obtain ⟨hhead, htail⟩ := List.nodup_cons.mp hnodup
    rw [take?] at h
    split at h
    · rename_i hid
      simp only [Option.some.injEq, Prod.mk.injEq] at h
      obtain ⟨rfl, rfl⟩ := h
      rw [List.filter_cons_of_neg (by simp [hid]), List.filter_eq_self.mpr]
      intro other hother
      rw [bne_iff_ne, ← hid]
      exact fun heq => hhead (List.mem_map.mpr ⟨other, hother, heq⟩)
    · rename_i hid
      obtain ⟨⟨found, others⟩, htake, heq⟩ := Option.map_eq_some_iff.mp h
      simp only [Prod.mk.injEq] at heq
      obtain ⟨rfl, rfl⟩ := heq
      rw [List.filter_cons, if_pos (bne_iff_ne.mpr hid), ← ih htake htail]

theorem take?_eq_none {a : Actor} {pending : List Node} (h : take? a pending = none) :
    a.id ∉ waiting pending := by
  induction pending with
  | nil => simp [waiting]
  | cons head tail ih =>
    rw [take?] at h
    split at h
    · simp at h
    · rename_i hid
      have hrest := ih (Option.map_eq_none_iff.mp h)
      simp only [waiting, List.map_cons, List.mem_cons, not_or] at hrest ⊢
      exact ⟨fun heq => hid heq.symm, hrest⟩

theorem waiting_nodes (g : Graph) (follow : Actor → List Link) :
    waiting (nodes g follow) = g.actors.map (·.id) := by
  simp [waiting, nodes]

end Dataflow.Search
