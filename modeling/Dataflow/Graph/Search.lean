import Dataflow.Graph.Lookup

namespace Dataflow.Search

/-- An actor that was not reached yet, with the links to follow from it. -/
structure Node where
  actor : Actor
  links : List Link

/-- All actors of a graph, none of them reached. -/
def nodes (g : Graph) (follow : Actor → List Link) : List Node :=
  g.actors.map fun a => ⟨a, follow a⟩

/-- Take an actor out of those that wait. -/
def take? (a : Actor) : List Node → Option (Node × List Node)
  | [] => none
  | node :: rest =>
    if node.actor.id = a.id then some (node, rest)
    else (take? a rest).map fun (found, others) => (found, node :: others)

/-- The steps that a list of links takes: one for each link, and one to finish. -/
def linkEffort (links : List Link) : Nat :=
  links.length + 1

/-- The steps that the lists of links on a stack will take. -/
def stackEffort : List (List Link) → Nat
  | [] => 0
  | links :: frames => linkEffort links + stackEffort frames

/-- The steps that the waiting actors will take. -/
def effort : List Node → Nat
  | [] => 0
  | node :: rest => linkEffort node.links + effort rest

/-- Taking an actor out takes its steps from those that wait. -/
theorem effort_take? {a : Actor} {pending rest : List Node} {node : Node}
    (h : take? a pending = some (node, rest)) :
    effort pending = linkEffort node.links + effort rest := by
  induction pending generalizing rest with
  | nil => simp [take?] at h
  | cons head tail ih =>
    rw [take?] at h
    split at h
    · simp only [Option.some.injEq, Prod.mk.injEq] at h
      obtain ⟨rfl, rfl⟩ := h
      rfl
    · obtain ⟨⟨found, others⟩, htake, heq⟩ := Option.map_eq_some_iff.mp h
      simp only [Prod.mk.injEq] at heq
      obtain ⟨rfl, rfl⟩ := heq
      have := ih htake
      simp only [effort]
      omega

/-- Taking an actor out leaves one actor less to wait. -/
theorem length_take? {a : Actor} {pending rest : List Node} {node : Node}
    (h : take? a pending = some (node, rest)) : pending.length = rest.length + 1 := by
  induction pending generalizing rest with
  | nil => simp [take?] at h
  | cons head tail ih =>
    rw [take?] at h
    split at h
    · simp only [Option.some.injEq, Prod.mk.injEq] at h
      rw [h.2, List.length_cons]
    · obtain ⟨⟨found, others⟩, htake, heq⟩ := Option.map_eq_some_iff.mp h
      simp only [Prod.mk.injEq] at heq
      obtain ⟨rfl, rfl⟩ := heq
      rw [List.length_cons, List.length_cons, ih htake]

end Dataflow.Search
