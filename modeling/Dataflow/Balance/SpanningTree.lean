import Dataflow.Graph.Search

namespace Dataflow.Balance

open Search

/-- Search on from a stack of links that are still to be followed, the innermost actor's first. The
answer lists the links that enter a new actor, in the order in which they are followed. -/
def explore (pending : List Node) (frames : List (List Link)) : List Link :=
  match frames with
  | [] => []
  | [] :: frames => explore pending frames
  | (link :: links) :: frames =>
    match _h : take? link.far.actor pending with
    | none => explore pending (links :: frames)
    | some (node, rest) => link :: explore rest (node.links :: links :: frames)
termination_by effort pending + stackEffort frames
decreasing_by
  · simp only [stackEffort, linkEffort]
    omega
  · simp only [stackEffort, linkEffort, List.length_cons]
    omega
  · simp only [stackEffort, linkEffort, List.length_cons, effort_take? _h]
    omega

/-- The links over which a search from `start` enters the actors of its component. -/
def spanningTree (g : Graph) (start : Actor) : List Link :=
  match take? start (nodes g g.allLinks) with
  | none => []
  | some (node, rest) => explore rest [node.links]

/-- The links from an actor back to the start. The tree is given with the last link first: the
links before the one that enters an actor are all that is needed to go on from there. -/
def pathToStart : (reversedTree : List Link) → Actor → List Link
  | [], _ => []
  | link :: earlier, a =>
    if link.far.actor.id = a.id then link :: pathToStart earlier link.near.actor
    else pathToStart earlier a

end Dataflow.Balance
