import Dataflow.Proofs.Graph.Preservation
import Dataflow.Proofs.Graph.Walk
import Dataflow.Proofs.Liveness.States

namespace Dataflow.Liveness

open Search

/-- Every frame but the outermost was entered over a channel from the frame below it. -/
def Stacked (g : Graph) : List Frame → Prop
  | frame :: below :: frames =>
    (∃ c ∈ g.channels, frame.entry = some c ∧ c.source.actor = below.actor ∧
      c.target.actor = frame.actor) ∧ Stacked g (below :: frames)
  | _ => True

/-- The outputs of the actors on a stack are still to be followed, or lead to finished actors or to
actors above. -/
def Explored (g : Graph) (finished : List Handle) : (above : List Handle) → List Frame → Prop
  | _, [] => True
  | above, frame :: frames =>
    (∀ l ∈ g.links frame.actor .output,
      l ∈ frame.links ∨ l.far.actor.id ∈ above ∨ l.far.actor.id ∈ finished) ∧
    Explored g finished (frame.actor.id :: above) frames

/-- The actors were finished in an order, the last one first, against which no channel runs. -/
def Settled (g : Graph) : (finished : List Handle) → Prop
  | [] => True
  | handle :: finished =>
    (∀ c ∈ g.channels, c.source.actor.id = handle → c.target.actor.id ∈ finished) ∧
    Settled g finished

/-- What is true of every state that the search passes. -/
structure Coloured (g : Graph) (s : State) : Prop where
  colours : (waiting s.pending ++ s.frames.map (·.actor.id) ++ s.finished).Perm
    (g.actors.map (·.id))
  waiting_mem : ∀ node ∈ s.pending, node.actor ∈ g.actors ∧ node.links = g.links node.actor .output
  stack_mem : ∀ frame ∈ s.frames, frame.actor ∈ g.actors ∧ frame.links ⊆ g.links frame.actor .output
  stacked : Stacked g s.frames
  explored : Explored g s.finished [] s.frames
  settled : Settled g s.finished

private theorem Explored.mono {g : Graph} {finished finished' above above' : List Handle}
    {frames : List Frame} (h : Explored g finished above frames)
    (hsub : ∀ handle, handle ∈ above ∨ handle ∈ finished → handle ∈ above' ∨ handle ∈ finished') :
    Explored g finished' above' frames := by
  induction frames generalizing above above' with
  | nil => trivial
  | cons frame frames ih =>
    refine ⟨fun l hl => (h.1 l hl).imp_right (hsub _), ih h.2 ?_⟩
    intro handle hmem
    rcases hmem with hmem | hmem
    · rcases List.mem_cons.mp hmem with rfl | hmem
      · exact Or.inl List.mem_cons_self
      · exact (hsub handle (Or.inl hmem)).imp_left (List.mem_cons_of_mem _)
    · exact (hsub handle (Or.inr hmem)).imp_left (List.mem_cons_of_mem _)

private theorem Stacked.tail {g : Graph} {frame : Frame} {frames : List Frame}
    (h : Stacked g (frame :: frames)) : Stacked g frames := by
  cases frames with
  | nil => trivial
  | cons below frames => exact h.2

/-- The links of a frame do not matter to how the stack hangs together. -/
theorem Stacked.congr {g : Graph} {actor : Actor} {entry : Option Channel}
    {links links' : List Link} {frames : List Frame}
    (h : Stacked g (⟨actor, entry, links⟩ :: frames)) :
    Stacked g (⟨actor, entry, links'⟩ :: frames) := by
  cases frames with
  | nil => trivial
  | cons below frames => exact h

namespace Coloured

variable {g : Graph} {s t : State}

theorem start (g : Graph) : Coloured g ⟨nodes g (g.links · .output), [], []⟩ where
  colours := by simp [waiting_nodes]
  waiting_mem := by
    intro node hnode
    obtain ⟨a, ha, rfl⟩ := List.mem_map.mp hnode
    exact ⟨ha, rfl⟩
  stack_mem := by simp
  stacked := trivial
  explored := trivial
  settled := trivial

theorem root {root : Node} {rest : List Node} {finished : List Handle}
    (h : Coloured g ⟨root :: rest, [], finished⟩) :
    Coloured g ⟨rest, [⟨root.actor, none, root.links⟩], finished⟩ where
  colours := by
    refine List.Perm.trans ?_ h.colours
    simp only [waiting, List.map_cons, List.map_nil, List.append_nil, List.cons_append,
      List.append_assoc, List.nil_append]
    exact List.perm_middle
  waiting_mem := fun node hnode => h.waiting_mem node (List.mem_cons_of_mem _ hnode)
  stack_mem := by
    intro frame hframe
    obtain ⟨hactor, hlinks⟩ := h.waiting_mem root List.mem_cons_self
    rw [List.mem_singleton.mp hframe]
    exact ⟨hactor, hlinks ▸ List.Subset.refl _⟩
  stacked := trivial
  explored := by
    obtain ⟨-, hlinks⟩ := h.waiting_mem root List.mem_cons_self
    exact ⟨fun l hl => Or.inl (hlinks ▸ hl), trivial⟩
  settled := h.settled

theorem finish (hg : g.WellFormed) {pending : List Node} {actor : Actor} {entry : Option Channel}
    {frames : List Frame} {finished : List Handle}
    (h : Coloured g ⟨pending, ⟨actor, entry, []⟩ :: frames, finished⟩) :
    Coloured g ⟨pending, frames, actor.id :: finished⟩ where
  colours := by
    refine List.Perm.trans ?_ h.colours
    simp only [List.map_cons, List.append_assoc, List.cons_append]
    exact List.perm_middle.append_left _
  waiting_mem := h.waiting_mem
  stack_mem := fun frame hframe => h.stack_mem frame (List.mem_cons_of_mem _ hframe)
  stacked := h.stacked.tail
  explored := by
    refine h.explored.2.mono ?_
    simp
  settled := by
    refine ⟨?_, h.settled⟩
    intro c hc hsource
    have hactor := (h.stack_mem _ List.mem_cons_self).1
    have heq := hg.actor_eq_of_id (hg.joins c hc .output).actor_mem hactor hsource
    have hlink : ⟨c, .output⟩ ∈ g.links actor .output := (hg.mem_links hactor).mpr ⟨hc, rfl, heq⟩
    rcases h.explored.1 _ hlink with hleft | habove | hdone
    · simp at hleft
    · simp at habove
    · exact hdone

theorem enter (hg : g.WellFormed) {pending rest : List Node} {actor : Actor}
    {entry : Option Channel} {link : Link} {links : List Link} {frames : List Frame}
    {finished : List Handle} {node : Node}
    (htake : take? link.far.actor pending = some (node, rest))
    (h : Coloured g ⟨pending, ⟨actor, entry, link :: links⟩ :: frames, finished⟩) :
    Coloured g ⟨rest,
      ⟨node.actor, some link.channel, node.links⟩ :: ⟨actor, entry, links⟩ :: frames,
      finished⟩ := by
  obtain ⟨hid, hperm⟩ := take?_eq_some htake
  have hnode := h.waiting_mem node (mem_of_take? htake)
  obtain ⟨hactor, hlinks⟩ := h.stack_mem _ List.mem_cons_self
  have hlink : link ∈ g.links actor .output := hlinks List.mem_cons_self
  obtain ⟨hchannel, hdirection, hnear⟩ := (hg.mem_links hactor).mp hlink
  have hfar : link.far.actor = node.actor :=
    hg.actor_eq_of_id (hg.far_mem hchannel) hnode.1 hid.symm
  exact {
    colours := by
      refine List.Perm.trans ?_ h.colours
      have hwaiting := hperm.map (·.actor.id)
      simp only [waiting, List.map_cons, List.append_assoc, List.cons_append] at hwaiting ⊢
      exact List.perm_middle.trans (hwaiting.symm.append_right _)
    waiting_mem := fun node hnode => h.waiting_mem node
      (hperm.mem_iff.mpr (List.mem_cons_of_mem _ hnode))
    stack_mem := by
      intro frame hframe
      rcases List.mem_cons.mp hframe with rfl | hframe
      · exact ⟨hnode.1, hnode.2 ▸ List.Subset.refl _⟩
      · rcases List.mem_cons.mp hframe with rfl | hframe
        · exact ⟨hactor, fun l hl => hlinks (List.mem_cons_of_mem _ hl)⟩
        · exact h.stack_mem frame (List.mem_cons_of_mem _ hframe)
    stacked := by
      obtain ⟨c, direction⟩ := link
      cases hdirection
      exact ⟨⟨c, hchannel, rfl, hnear, hfar⟩, h.stacked.congr⟩
    explored := by
      refine ⟨fun l hl => Or.inl (hnode.2 ▸ hl), ?_, h.explored.2.mono ?_⟩
      · intro l hl
        -- The link that is followed is no longer left, but leads to the frame above.
        rcases h.explored.1 l hl with hleft | habove | hdone
        · rcases List.mem_cons.mp hleft with rfl | hleft
          · exact Or.inr (Or.inl (by rw [hfar]; exact List.mem_cons_self))
          · exact Or.inl hleft
        · simp at habove
        · exact Or.inr (Or.inr hdone)
      · intro handle hmem
        exact hmem.imp_left fun hmem => by simp_all
    settled := h.settled }

theorem skip {pending : List Node} {actor : Actor} {entry : Option Channel} {link : Link}
    {links : List Link} {frames : List Frame} {finished : List Handle}
    (hdone : link.far.actor.id ∈ finished)
    (h : Coloured g ⟨pending, ⟨actor, entry, link :: links⟩ :: frames, finished⟩) :
    Coloured g ⟨pending, ⟨actor, entry, links⟩ :: frames, finished⟩ where
  colours := h.colours
  waiting_mem := h.waiting_mem
  stack_mem := by
    intro frame hframe
    rcases List.mem_cons.mp hframe with rfl | hframe
    · obtain ⟨hactor, hlinks⟩ := h.stack_mem _ List.mem_cons_self
      exact ⟨hactor, fun l hl => hlinks (List.mem_cons_of_mem _ hl)⟩
    · exact h.stack_mem frame (List.mem_cons_of_mem _ hframe)
  stacked := h.stacked.congr
  explored := by
    refine ⟨?_, h.explored.2⟩
    intro l hl
    rcases h.explored.1 l hl with hleft | hrest
    · rcases List.mem_cons.mp hleft with rfl | hleft
      · exact Or.inr (Or.inr hdone)
      · exact Or.inl hleft
    · exact Or.inr hrest
  settled := h.settled

private theorem step (hg : g.WellFormed) (h : Coloured g s) (hstep : s.step = .searching t) :
    Coloured g t := by
  rcases State.step_eq_searching hstep with ⟨_, _, _, rfl, rfl⟩ | ⟨_, _, _, _, _, rfl, rfl⟩ |
    ⟨_, _, _, _, _, _, _, _, _, htake, rfl, rfl⟩ | ⟨_, _, _, _, _, _, _, hdone, rfl, rfl⟩
  · exact h.root
  · exact h.finish hg
  · exact h.enter hg htake
  · exact h.skip hdone

end Coloured

theorem Passes.coloured {g : Graph} (hg : g.WellFormed) {s : State} (h : Passes g s) :
    Coloured g s := by
  induction h with
  | start => exact Coloured.start g
  | step _ hstep ih => exact ih.step hg hstep

end Dataflow.Liveness
