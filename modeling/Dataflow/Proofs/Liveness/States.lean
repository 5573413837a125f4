import Dataflow.Liveness
import Dataflow.Proofs.Graph.Search

namespace Dataflow.Liveness

open Search

/-- Where a search for a directed cycle stands. -/
structure State where
  pending : List Node
  frames : List Frame
  finished : List Handle

/-- What a state leads to: a further state, or the end of the search. The search closes a cycle when
a link from the innermost actor of the stack leads to an actor that is neither new nor finished. -/
inductive Outcome where
  | searching (s : State)
  | live (finished : List Handle)
  | closed (frames : List Frame) (link : Link)

/-- One step of the search. -/
def State.step : State → Outcome
  | ⟨[], [], finished⟩ => .live finished
  | ⟨root :: rest, [], finished⟩ => .searching ⟨rest, [⟨root.actor, none, root.links⟩], finished⟩
  | ⟨pending, ⟨actor, _, []⟩ :: frames, finished⟩ =>
    .searching ⟨pending, frames, actor.id :: finished⟩
  | ⟨pending, ⟨actor, entry, link :: links⟩ :: frames, finished⟩ =>
    match take? link.far.actor pending with
    | some (node, rest) =>
      .searching
        ⟨rest, ⟨node.actor, some link.channel, node.links⟩ :: ⟨actor, entry, links⟩ :: frames,
          finished⟩
    | none =>
      if finished.contains link.far.actor.id then
        .searching ⟨pending, ⟨actor, entry, links⟩ :: frames, finished⟩
      else .closed (⟨actor, entry, links⟩ :: frames) link

theorem State.step_eq_searching {s t : State} (h : s.step = .searching t) :
    (∃ root rest finished, s = ⟨root :: rest, [], finished⟩ ∧
      t = ⟨rest, [⟨root.actor, none, root.links⟩], finished⟩) ∨
    (∃ pending actor entry frames finished, s = ⟨pending, ⟨actor, entry, []⟩ :: frames, finished⟩ ∧
      t = ⟨pending, frames, actor.id :: finished⟩) ∨
    (∃ pending actor entry link links frames finished node rest,
      take? link.far.actor pending = some (node, rest) ∧
      s = ⟨pending, ⟨actor, entry, link :: links⟩ :: frames, finished⟩ ∧
      t = ⟨rest, ⟨node.actor, some link.channel, node.links⟩ :: ⟨actor, entry, links⟩ :: frames,
        finished⟩) ∨
    (∃ pending actor entry link links frames finished, link.far.actor.id ∈ finished ∧
      s = ⟨pending, ⟨actor, entry, link :: links⟩ :: frames, finished⟩ ∧
      t = ⟨pending, ⟨actor, entry, links⟩ :: frames, finished⟩) := by
  unfold step at h
  split at h
  · cases h
  · cases h
    exact Or.inl ⟨_, _, _, rfl, rfl⟩
  · cases h
    exact Or.inr (Or.inl ⟨_, _, _, _, _, rfl, rfl⟩)
  · split at h
    · rename_i htake
      cases h
      exact Or.inr (Or.inr (Or.inl ⟨_, _, _, _, _, _, _, _, _, htake, rfl, rfl⟩))
    · split at h
      · rename_i hdone
        cases h
        exact Or.inr (Or.inr (Or.inr
          ⟨_, _, _, _, _, _, _, List.contains_iff_mem.mp hdone, rfl, rfl⟩))
      · cases h

theorem State.step_eq_live {s : State} {finished : List Handle} (h : s.step = .live finished) :
    s = ⟨[], [], finished⟩ := by
  unfold step at h
  split at h
  · cases h
    rfl
  · cases h
  · cases h
  · split at h
    · cases h
    · split at h <;> cases h

theorem State.step_eq_closed {s : State} {frames : List Frame} {link : Link}
    (h : s.step = .closed frames link) :
    ∃ actor entry links below, s.frames = ⟨actor, entry, link :: links⟩ :: below ∧
      frames = ⟨actor, entry, links⟩ :: below ∧ link.far.actor.id ∉ waiting s.pending ∧
      link.far.actor.id ∉ s.finished := by
  unfold step at h
  split at h
  · cases h
  · cases h
  · cases h
  · split at h
    · cases h
    · rename_i htake
      split at h
      · cases h
      · rename_i hdone
        cases h
        exact ⟨_, _, _, _, rfl, rfl, take?_eq_none htake, by simpa using hdone⟩

/-- The search from a state on. -/
def State.search (s : State) : Verdict (List Handle) DirectedCycle :=
  visit s.pending s.frames s.finished

private theorem State.search_eq (s : State) :
    s.search =
      match s.step with
      | .searching t => t.search
      | .live finished => .success finished
      | .closed frames link =>
        .violated ⟨unwind frames link.far.actor ++ [link.channel], by simp⟩ := by
  obtain ⟨pending, frames, finished⟩ := s
  unfold search step
  cases frames with
  | nil => cases pending <;> simp [visit]
  | cons frame frames =>
    obtain ⟨actor, entry, links⟩ := frame
    cases links with
    | nil => simp [visit]
    | cons link links =>
      rw [visit]
      cases htake : take? link.far.actor pending with
      | some found => simp [htake]
      | none => by_cases hdone : link.far.actor.id ∈ finished <;> simp [htake, hdone]

/-- The states that the check of a graph passes. -/
inductive Passes (g : Graph) : State → Prop
  | start : Passes g ⟨nodes g (g.links · .output), [], []⟩
  | step {s t : State} (h : Passes g s) (hstep : s.step = .searching t) : Passes g t

/-- The check of a graph is the search from any state that it passes. -/
theorem Passes.search_eq {g : Graph} {s : State} (h : Passes g s) : s.search = check g := by
  induction h with
  | start => rfl
  | @step s t _ hstep ih =>
    have heq := s.search_eq
    rw [hstep] at heq
    exact heq.symm.trans ih

private theorem passes_last {g : Graph} (pending : List Node) (frames : List Frame)
    (finished : List Handle) (h : Passes g ⟨pending, frames, finished⟩) :
    ∃ s, Passes g s ∧ ∀ t, s.step ≠ .searching t := by
  induction pending, frames, finished using visit.induct with
  | case1 finished => exact ⟨_, h, by simp [State.step]⟩
  | case2 finished root rest ih => exact ih (h.step rfl)
  | case3 pending finished actor entry frames ih =>
    exact ih (h.step (by simp [State.step]))
  | case4 pending finished actor entry link links frames node rest htake ih =>
    exact ih (h.step (by simp [State.step, htake]))
  | case5 pending finished actor entry link links frames htake hdone ih =>
    exact ih (h.step (by simp_all [State.step]))
  | case6 pending finished actor entry link links frames htake hdone =>
    exact ⟨_, h, by simp_all [State.step]⟩

/-- How the check of a graph ends. -/
theorem check_cases (g : Graph) :
    (∃ s finished, Passes g s ∧ s.step = .live finished ∧ check g = .success finished) ∨
    (∃ s frames link, Passes g s ∧ s.step = .closed frames link ∧
      check g = .violated ⟨unwind frames link.far.actor ++ [link.channel], by simp⟩) := by
  obtain ⟨s, hs, hlast⟩ := passes_last _ _ _ (Passes.start (g := g))
  have hcheck := hs.search_eq
  rw [State.search_eq] at hcheck
  cases hstep : s.step with
  | searching t => exact absurd hstep (hlast t)
  | live finished =>
    rw [hstep] at hcheck
    exact Or.inl ⟨s, finished, hs, hstep, hcheck.symm⟩
  | closed frames link =>
    rw [hstep] at hcheck
    exact Or.inr ⟨s, frames, link, hs, hstep, hcheck.symm⟩

end Dataflow.Liveness
