import Dataflow.Proofs.Liveness.Unwinding
import Dataflow.Workspace

namespace Dataflow.Liveness

open Search

private theorem Settled.target_mem {g : Graph} {finished : List Handle} (h : Settled g finished)
    {c : Channel} (hc : c ∈ g.channels) (hsource : c.source.actor.id ∈ finished) :
    c.target.actor.id ∈ finished := by
  induction finished with
  | nil => simp at hsource
  | cons handle finished ih =>
    rcases List.mem_cons.mp hsource with heq | hsource
    · exact List.mem_cons_of_mem _ (h.1 c hc heq)
    · exact List.mem_cons_of_mem _ (ih h.2 hsource)

/-- Channels run from later finished actors to earlier ones. -/
theorem Settled.idxOf_lt {g : Graph} {finished : List Handle} (h : Settled g finished)
    (hnodup : finished.Nodup) {c : Channel} (hc : c ∈ g.channels)
    (hsource : c.source.actor.id ∈ finished) :
    finished.idxOf c.source.actor.id < finished.idxOf c.target.actor.id := by
  induction finished with
  | nil => simp at hsource
  | cons handle finished ih =>
    obtain ⟨hhead, hnodup⟩ := List.nodup_cons.mp hnodup
    have htarget : c.target.actor.id ∈ finished := by
      rcases List.mem_cons.mp hsource with heq | hsource
      · exact h.1 c hc heq
      · exact h.2.target_mem hc hsource
    have hne : handle ≠ c.target.actor.id := fun heq => hhead (heq ▸ htarget)
    rw [List.idxOf_cons_ne _ hne]
    by_cases heq : handle = c.source.actor.id
    · rw [heq, List.idxOf_cons_self]
      omega
    · rw [List.idxOf_cons_ne _ heq]
      have hmem := (List.mem_cons.mp hsource).resolve_left fun he => heq he.symm
      have hlt := ih h.2 hnodup hmem
      omega

private theorem Coloured.acyclic {g : Graph} (hg : g.WellFormed) {finished : List Handle}
    (h : Coloured g ⟨[], [], finished⟩) : g.Acyclic := by
  have hperm : finished.Perm (g.actors.map (·.id)) := by simpa [waiting] using h.colours
  have hnodup := hperm.nodup_iff.mpr hg.nodup_actor_ids
  have hlater {a b : Actor} (hpath : Relation.TransGen g.Feeds a b) :
      finished.idxOf a.id < finished.idxOf b.id := by
    have hfeeds {a b : Actor} (hab : g.Feeds a b) :
        finished.idxOf a.id < finished.idxOf b.id := by
      obtain ⟨c, hc, rfl, rfl⟩ := hab
      have hsource := List.mem_map_of_mem (f := (·.id)) (hg.joins c hc .output).actor_mem
      exact h.settled.idxOf_lt hnodup hc (hperm.mem_iff.mpr hsource)
    induction hpath with
    | single hab => exact hfeeds hab
    | tail _ hbc ih => exact Nat.lt_trans ih (hfeeds hbc)
  intro a hcycle
  exact Nat.lt_irrefl _ (hlater hcycle)

theorem check_success_iff {g : Graph} (hg : g.WellFormed) :
    (check g).isSuccess = true ↔ g.Acyclic := by
  rcases check_cases g with ⟨s, finished, hs, hstep, hcheck⟩ | ⟨s, frames, link, hs, hstep, hcheck⟩
  · have hcoloured := hs.coloured hg
    rw [State.step_eq_live hstep] at hcoloured
    rw [hcheck]
    exact ⟨fun _ => hcoloured.acyclic hg, fun _ => rfl⟩
  · obtain ⟨hmem, hleads, -⟩ := (hs.coloured hg).closes hg hstep
    rw [hcheck]
    refine ⟨fun h => by simp [Verdict.isSuccess] at h, fun hacyclic => ?_⟩
    exact absurd (hleads.transGen_feeds hmem (by simp)) (hacyclic link.far.actor)

private theorem check_violated {g : Graph} (hg : g.WellFormed) {cycle : DirectedCycle}
    (h : check g = .violated cycle) : cycle.IsSimpleIn g := by
  rcases check_cases g with ⟨s, finished, hs, hstep, hcheck⟩ | ⟨s, frames, link, hs, hstep, hcheck⟩
  · rw [h] at hcheck
    cases hcheck
  · obtain ⟨hmem, hleads, hnodup⟩ := (hs.coloured hg).closes hg hstep
    rw [h] at hcheck
    cases hcheck
    have hne : unwind frames link.far.actor ++ [link.channel] ≠ [] := by simp
    exact ⟨hmem, hleads.forward_joined,
      (hleads.forward_getLast hne).trans (hleads.forward_head hne).symm, hnodup⟩

theorem checkLiveness_eq (w : Workspace) :
    w.checkLiveness =
      match check w.graph with
      | .success finished =>
        .ok (.success ())
          { w with
            journal := w.journal.note .debug
              s!"Graph is acyclic, {finished.length} actors checked" }
      | .violated cycle =>
        .ok (.violated cycle)
          { w with journal := w.journal.note .warning s!"Graph is not live: {cycle.report}" } := by
  rw [Workspace.checkLiveness, Action.get_bind_apply]
  cases check w.graph <;> rfl

/-- `checkLiveness` returns a verdict for every graph that can be built, and it is `success` if and
only if the channels close no directed cycle. A reported cycle is a simple cycle of the graph. The
states of the search are those that `step` passes through, and where a link closes a cycle, its
target is on the stack. -/
theorem checkLiveness_decides {w : Workspace} (hw : w.graph.Reachable) :
    ∃ verdict w', w.checkLiveness = .ok verdict w' ∧
      (verdict.isSuccess = true ↔ w.graph.Acyclic) ∧
      (∀ cycle, verdict = .violated cycle → cycle.IsSimpleIn w.graph) ∧
      ∀ s, Passes w.graph s → s.search = check w.graph ∧
        ∀ frames link, s.step = .closed frames link →
          ∃ frame ∈ frames, frame.actor = link.far.actor := by
  have hg := hw.wellFormed
  have hiff := check_success_iff hg
  have hstates : ∀ s, Passes w.graph s → s.search = check w.graph ∧
      ∀ frames link, s.step = .closed frames link →
        ∃ frame ∈ frames, frame.actor = link.far.actor :=
    fun s hs => ⟨hs.search_eq, fun _ _ hstep => (hs.coloured hg).target_on_stack hg hstep⟩
  have hrun := checkLiveness_eq w
  cases hcheck : check w.graph with
  | success finished =>
    rw [hcheck] at hiff hstates hrun
    exact ⟨_, _, hrun, hiff, by simp, hstates⟩
  | violated cycle =>
    rw [hcheck] at hiff hstates hrun
    refine ⟨_, _, hrun, hiff, ?_, hstates⟩
    intro reported hreported
    cases hreported
    exact check_violated hg hcheck

/-- Two actors that feed each other. -/
def feedback : Graph :=
  Graph.performAll (.empty none)
    [ .addActor "a" "A" 0 false, .addActor "b" "B" 0 false, .addPort "A" "in" .input none,
      .addPort "A" "out" .output none, .addPort "B" "in" .input none,
      .addPort "B" "out" .output none, .addChannel ("a", "out") ("b", "in") {},
      .addChannel ("b", "out") ("a", "in") {} ]

theorem checkLiveness_decides_feedback :
    feedback.Reachable ∧ (check feedback).isSuccess = false ∧
      ∃ verdict w', Workspace.checkLiveness ⟨feedback, .empty, .empty, []⟩ = .ok verdict w' ∧
        (verdict.isSuccess = true ↔ feedback.Acyclic) ∧
        (∀ cycle, verdict = .violated cycle → cycle.IsSimpleIn feedback) ∧
        ∀ s, Passes feedback s → s.search = check feedback ∧
          ∀ frames link, s.step = .closed frames link →
            ∃ frame ∈ frames, frame.actor = link.far.actor := by
  have hreachable : feedback.Reachable := (Graph.Reachable.empty none).performAll _
  exact ⟨hreachable, by decide +kernel,
    checkLiveness_decides (w := ⟨feedback, .empty, .empty, []⟩) hreachable⟩

end Dataflow.Liveness
