import Dataflow.Proofs.Liveness.Colours
import Mathlib.Logic.Relation

namespace Dataflow

/-- One actor sends tokens to another over some channel. -/
def Graph.Feeds (g : Graph) (a b : Actor) : Prop :=
  ∃ c ∈ g.channels, c.source.actor = a ∧ c.target.actor = b

/-- No actor gets back, over one channel or several, what it sends. -/
def Graph.Acyclic (g : Graph) : Prop :=
  ∀ a, ¬ Relation.TransGen g.Feeds a a

/-- The channels of a graph lead on from one actor to the next and back to the first, and no actor
sends over two of them. -/
structure DirectedCycle.IsSimpleIn (cycle : DirectedCycle) (g : Graph) : Prop where
  channels_mem : ∀ c ∈ cycle.channels, c ∈ g.channels
  joined : cycle.channels.IsChain fun c d => c.target.actor = d.source.actor
  closed : (cycle.channels.getLast cycle.ne_nil).target.actor = cycle.start
  nodup_actors : cycle.actors.Nodup

/-- A channel in the direction of its tokens. -/
def Channel.forward (c : Channel) : Link :=
  ⟨c, .output⟩

namespace Leads

variable {g : Graph} {a b : Actor} {cs : List Channel}

theorem forward_joined (h : Leads a (cs.map Channel.forward) b) :
    cs.IsChain fun c d => c.target.actor = d.source.actor := by
  induction cs generalizing a with
  | nil => exact List.IsChain.nil
  | cons c cs ih =>
    cases cs with
    | nil => exact List.IsChain.singleton c
    | cons d cs => exact List.isChain_cons_cons.mpr ⟨h.2.1.symm, ih h.2⟩

theorem forward_head (h : Leads a (cs.map Channel.forward) b) (hne : cs ≠ []) :
    (cs.head hne).source.actor = a := by
  cases cs with
  | nil => exact absurd rfl hne
  | cons c cs => exact h.1

theorem forward_getLast (h : Leads a (cs.map Channel.forward) b) (hne : cs ≠ []) :
    (cs.getLast hne).target.actor = b := by
  induction cs generalizing a with
  | nil => exact absurd rfl hne
  | cons c cs ih =>
    cases cs with
    | nil => exact h.2
    | cons d cs =>
      rw [List.getLast_cons (List.cons_ne_nil d cs)]
      exact ih h.2 (List.cons_ne_nil d cs)

theorem transGen_feeds (h : Leads a (cs.map Channel.forward) b) (hmem : ∀ c ∈ cs, c ∈ g.channels)
    (hne : cs ≠ []) : Relation.TransGen g.Feeds a b := by
  induction cs generalizing a with
  | nil => exact absurd rfl hne
  | cons c cs ih =>
    have hfeeds : g.Feeds a c.target.actor := ⟨c, hmem c List.mem_cons_self, h.1, rfl⟩
    cases cs with
    | nil =>
      have hend : c.target.actor = b := h.2
      exact hend ▸ Relation.TransGen.single hfeeds
    | cons d cs =>
      exact Relation.TransGen.head hfeeds
        (ih h.2 (fun e he => hmem e (List.mem_cons_of_mem _ he)) (List.cons_ne_nil d cs))

end Leads

namespace Liveness

open Search

theorem unwind_cons (frame : Frame) (frames : List Frame) (target : Actor) :
    unwind (frame :: frames) target =
      if frame.actor.id = target.id then [] else unwind frames target ++ frame.entry.toList := by
  by_cases h : frame.actor.id = target.id
  · simp [unwind, h]
  · cases hentry : frame.entry <;> simp [unwind, h, hentry]

/-- What is cut out of a stack leads from the target up to the innermost actor. -/
theorem unwind_spec {g : Graph} (hg : g.WellFormed) {target : Actor} (htarget : target ∈ g.actors)
    {frame : Frame} {frames : List Frame} (hstacked : Stacked g (frame :: frames))
    (hactors : ∀ f ∈ frame :: frames, f.actor ∈ g.actors)
    (hmem : target.id ∈ (frame :: frames).map (·.actor.id)) :
    (∀ c ∈ unwind (frame :: frames) target, c ∈ g.channels) ∧
    Leads target ((unwind (frame :: frames) target).map Channel.forward) frame.actor ∧
    ((unwind (frame :: frames) target).map (·.source.actor) ++ [frame.actor]).Sublist
      ((frame :: frames).map (·.actor)).reverse := by
  induction frames generalizing frame with
  | nil =>
    have hid : target.id = frame.actor.id := by simpa using hmem
    have heq := hg.actor_eq_of_id htarget (hactors frame List.mem_cons_self) hid
    rw [unwind_cons, if_pos hid.symm]
    exact ⟨by simp, heq, by simp⟩
  | cons below frames ih =>
    rw [unwind_cons]
    by_cases hid : frame.actor.id = target.id
    · have heq := hg.actor_eq_of_id htarget (hactors frame List.mem_cons_self) hid.symm
      rw [if_pos hid]
      exact ⟨by simp, heq, by simp⟩
    · obtain ⟨⟨c, hc, hentry, hsource, hend⟩, hbelow⟩ := hstacked
      have hmem' : target.id ∈ (below :: frames).map (·.actor.id) := by
        rcases List.mem_cons.mp hmem with heq | hmem
        · exact absurd heq.symm hid
        · exact hmem
      obtain ⟨hchannels, hleads, hsub⟩ := ih hbelow
        (fun f hf => hactors f (List.mem_cons_of_mem _ hf)) hmem'
      rw [if_neg hid, hentry, Option.toList_some]
      refine ⟨?_, ?_, ?_⟩
      · intro d hd
        rcases List.mem_append.mp hd with hd | hd
        · exact hchannels d hd
        · exact List.mem_singleton.mp hd ▸ hc
      · rw [List.map_append]
        exact hleads.append ⟨hsource, hend⟩
      · rw [List.map_append, List.map_cons, List.map_nil, hsource, List.map_cons,
          List.reverse_cons]
        exact hsub.append_right _

/-- Where the search closes a cycle, the actor at which it closes is on the stack. -/
theorem Coloured.closing {g : Graph} (hg : g.WellFormed) {s : State} (h : Coloured g s)
    {frames : List Frame} {link : Link} (hstep : s.step = .closed frames link) :
    ∃ frame below, frames = frame :: below ∧ link.channel ∈ g.channels ∧
      link.direction = .output ∧ link.near.actor = frame.actor ∧ Stacked g frames ∧
      (∀ f ∈ frames, f.actor ∈ g.actors) ∧ (frames.map (·.actor)).Nodup ∧
      link.far.actor.id ∈ frames.map (·.actor.id) := by
  obtain ⟨actor, entry, links, below, hframes, rfl, hwaiting, hfinished⟩ :=
    State.step_eq_closed hstep
  obtain ⟨hactor, hlinks⟩ := h.stack_mem _ (hframes ▸ List.mem_cons_self)
  obtain ⟨hchannel, hdirection, hnear⟩ := (hg.mem_links hactor).mp (hlinks List.mem_cons_self)
  have hstacked := h.stacked
  rw [hframes] at hstacked
  refine ⟨_, _, rfl, hchannel, hdirection, hnear, hstacked.congr, ?_, ?_, ?_⟩
  · intro f hf
    rcases List.mem_cons.mp hf with rfl | hf
    · exact hactor
    · exact (h.stack_mem f (hframes ▸ List.mem_cons_of_mem _ hf)).1
  · have hids := (List.nodup_append.mp (List.nodup_append.mp
      (h.colours.nodup_iff.mpr hg.nodup_actor_ids)).1).2.1
    rw [hframes] at hids
    apply List.Nodup.of_map Actor.id
    rw [List.map_map]
    exact hids
  · have hfar := hg.far_mem hchannel
    have hcolour := h.colours.mem_iff.mpr (List.mem_map_of_mem (f := (·.id)) hfar)
    rw [List.mem_append, List.mem_append, hframes] at hcolour
    rcases hcolour with (hmem | hmem) | hmem
    · exact absurd hmem hwaiting
    · exact hmem
    · exact absurd hmem hfinished

theorem Coloured.target_on_stack {g : Graph} (hg : g.WellFormed) {s : State} (h : Coloured g s)
    {frames : List Frame} {link : Link} (hstep : s.step = .closed frames link) :
    ∃ frame ∈ frames, frame.actor = link.far.actor := by
  obtain ⟨_, _, -, hchannel, -, -, -, hactors, -, hmem⟩ := h.closing hg hstep
  obtain ⟨frame, hframe, hid⟩ := List.mem_map.mp hmem
  have hfar := hg.far_mem hchannel
  exact ⟨frame, hframe, hg.actor_eq_of_id (hactors frame hframe) hfar hid⟩

/-- The channels cut out of the stack and the link that closes the cycle lead from the actor at
which the cycle closes back to it, and no actor sends over two of them. -/
theorem Coloured.closes {g : Graph} (hg : g.WellFormed) {s : State} (h : Coloured g s)
    {frames : List Frame} {link : Link} (hstep : s.step = .closed frames link) :
    let cs := unwind frames link.far.actor ++ [link.channel]
    (∀ c ∈ cs, c ∈ g.channels) ∧ Leads link.far.actor (cs.map Channel.forward) link.far.actor ∧
      (cs.map (·.source.actor)).Nodup := by
  obtain ⟨frame, below, rfl, hchannel, hdirection, hnear, hstacked, hactors, hnodup, hmem⟩ :=
    h.closing hg hstep
  have hfar := hg.far_mem hchannel
  obtain ⟨hchannels, hleads, hsub⟩ := unwind_spec hg hfar hstacked hactors hmem
  obtain ⟨c, direction⟩ := link
  cases hdirection
  refine ⟨?_, ?_, ?_⟩
  · intro d hd
    rcases List.mem_append.mp hd with hd | hd
    · exact hchannels d hd
    · exact List.mem_singleton.mp hd ▸ hchannel
  · rw [List.map_append]
    exact hleads.append ⟨hnear, rfl⟩
  · have hsource : c.source.actor = frame.actor := hnear
    rw [List.map_append, List.map_cons, List.map_nil, hsource]
    exact (List.nodup_reverse.mpr hnodup).sublist hsub

end Liveness

end Dataflow
