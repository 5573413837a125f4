import Dataflow.Graph.Search
import Dataflow.Verdict

namespace Dataflow

/-- Channels of a directed cycle, in the direction of the tokens. -/
structure DirectedCycle where
  channels : List Channel
  ne_nil : channels ≠ []

namespace DirectedCycle

/-- The actor at which the cycle begins. -/
def start (cycle : DirectedCycle) : Actor :=
  (cycle.channels.head cycle.ne_nil).source.actor

/-- The actors of the cycle, from the start on. -/
def actors (cycle : DirectedCycle) : List Actor :=
  cycle.channels.map (·.source.actor)

/-- The cycle as a path that returns to its start, with the channels that it follows. -/
def report (cycle : DirectedCycle) : String :=
  let path := " -> ".intercalate (cycle.actors.map (·.name) ++ [cycle.start.name])
  let channels := ", ".intercalate (cycle.channels.map (·.text))
  s!"Cycle found: {path} [{channels}]"

/-- The failure with which a cycle is raised. -/
def failure (cycle : DirectedCycle) : Failure :=
  .cyclic cycle.report

end DirectedCycle

namespace Liveness

open Search

/-- An actor whose outputs are being followed: the channel over which it was entered, and the
outputs that are left. -/
structure Frame where
  actor : Actor
  entry : Option Channel
  links : List Link

/-- The channels from `target` to the innermost actor on the stack. -/
def unwind (frames : List Frame) (target : Actor) : List Channel :=
  ((frames.takeWhile (·.actor.id != target.id)).reverse).filterMap (·.entry)

/-- Search on from a stack of actors, the innermost first. The answer is the list of finished
actors, or the first cycle that was closed. -/
def visit (pending : List Node) (frames : List Frame) (finished : List Handle) :
    Verdict (List Handle) DirectedCycle :=
  match frames with
  | [] =>
    match pending with
    | [] => .success finished
    | root :: rest => visit rest [⟨root.actor, none, root.links⟩] finished
  | ⟨actor, _, []⟩ :: frames => visit pending frames (actor.id :: finished)
  | ⟨actor, entry, link :: links⟩ :: frames =>
    match _h : take? link.far.actor pending with
    | some (node, rest) =>
      visit rest (⟨node.actor, some link.channel, node.links⟩ :: ⟨actor, entry, links⟩ :: frames)
        finished
    | none =>
      if finished.contains link.far.actor.id then
        visit pending (⟨actor, entry, links⟩ :: frames) finished
      else
        .violated
          ⟨unwind (⟨actor, entry, links⟩ :: frames) link.far.actor ++ [link.channel], by simp⟩
termination_by pending.length + effort pending + stackEffort (frames.map (·.links))
decreasing_by
  · simp only [effort, stackEffort, List.map_cons, List.map_nil, List.length_cons]
    omega
  · simp only [stackEffort, linkEffort, List.map_cons]
    omega
  · simp only [stackEffort, linkEffort, List.map_cons, List.length_cons, effort_take? _h,
      length_take? _h]
    omega
  · simp only [stackEffort, linkEffort, List.map_cons, List.length_cons]
    omega

/-- Look for a directed cycle. On success the answer lists all actors. -/
def check (g : Graph) : Verdict (List Handle) DirectedCycle :=
  visit (nodes g (g.links · .output)) [] []

end Liveness

end Dataflow
