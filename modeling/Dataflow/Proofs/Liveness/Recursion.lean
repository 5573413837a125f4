import Dataflow.Proofs.Liveness.Acyclic
import Dataflow.Proofs.Recursion
import Mathlib.Data.List.TakeWhile

namespace Dataflow

open Search

namespace Liveness

/-- The colours that a recursion has given: to the actors that it has reached, and to those whose
outputs it has followed. -/
structure Colours where
  visited : List Handle
  finished : List Handle

namespace Colours

/-- Colour an actor that is reached. -/
def visit (c : Colours) (a : Actor) : Colours :=
  { c with visited := a.id :: c.visited }

/-- Colour an actor whose outputs were followed. -/
def finish (c : Colours) (a : Actor) : Colours :=
  { c with finished := a.id :: c.finished }

end Colours

end Liveness

open Liveness

/-- Colour an actor that is reached by `path`, and what can be reached from it. A link back to an
actor that is not finished closes a cycle with the end of the path. -/
def Graph.colour (g : Graph) (a : Actor) (path : List Channel) :
    Recursion Colours (List Channel) Unit := do
  modify (·.visit a)
  (g.links a .output).forM fun link => do
    let next := link.far.actor
    let c ← get
    if next.id ∉ c.visited then
      g |>.colour next (path ++ [link.channel])
    else if next.id ∉ c.finished then
      throw (path.dropWhile (·.source.actor.id != next.id) ++ [link.channel])
  modify (·.finish a)
partial_fixpoint

namespace Liveness

/-- Colour what can be reached from an actor, if it has no colour yet. -/
def colourRoot (g : Graph) (root : Actor) : Recursion Colours (List Channel) Unit := do
  if root.id ∉ (← get).visited then
    g.colour root []

/-- Colour all actors. -/
def colourAll (g : Graph) : Recursion Colours (List Channel) Unit :=
  g.actors.forM (colourRoot g)

/-- What the recursion does at a link of an actor that it reached by `path`. -/
def follow (g : Graph) (path : List Channel) (link : Link) :
    Recursion Colours (List Channel) Unit := do
  let next := link.far.actor
  let c ← get
  if next.id ∉ c.visited then
    g.colour next (path ++ [link.channel])
  else if next.id ∉ c.finished then
    throw (path.dropWhile (·.source.actor.id != next.id) ++ [link.channel])

/-- The channels over which the actors of a stack were entered, the outermost first. -/
def trail (frames : List Frame) : List Channel :=
  (frames.filterMap (·.entry)).reverse

/-- The recursion with a stack, and after it some roots, still before it. -/
def resume (g : Graph) (roots : List Actor) : List Frame → Recursion Colours (List Channel) Unit
  | [] => roots.forM (colourRoot g)
  | frame :: frames => do
    frame.links.forM (follow g (trail (frame :: frames)))
    modify (·.finish frame.actor)
    resume g roots frames

private theorem colour_eq (g : Graph) (a : Actor) (path : List Channel) :
    g.colour a path = (do
      modify (·.visit a)
      (g.links a .output).forM (follow g path)
      modify (·.finish a)) := by
  rw [Graph.colour]
  rfl

section Trail

variable {g : Graph} {frame : Frame} {frames : List Frame} {target : Actor}

private theorem trail_cons (frame : Frame) (frames : List Frame) :
    trail (frame :: frames) = trail frames ++ frame.entry.toList := by
  cases hentry : frame.entry <;> simp [trail, hentry]

/-- The outermost actor of a stack was not entered over a channel. -/
def Rooted (frames : List Frame) : Prop :=
  ∀ frame ∈ frames.getLast?, frame.entry = none

private theorem Rooted.tail (h : Rooted (frame :: frames)) : Rooted frames := by
  cases frames with
  | nil => exact fun _ hframe => nomatch hframe
  | cons below frames => exact h

/-- The links of a frame do not matter to where a stack is rooted. -/
theorem Rooted.congr {actor : Actor} {entry : Option Channel} {links links' : List Link}
    (h : Rooted (⟨actor, entry, links⟩ :: frames)) : Rooted (⟨actor, entry, links'⟩ :: frames) := by
  cases frames with
  | nil =>
    intro frame hframe
    cases hframe
    exact h ⟨actor, entry, links⟩ rfl
  | cons below frames => exact h

/-- The channels of a trail begin below the innermost actor. -/
theorem source_mem_of_mem_trail (hstacked : Stacked g (frame :: frames))
    (hrooted : Rooted (frame :: frames)) {c : Channel} (hc : c ∈ trail (frame :: frames)) :
    c.source.actor ∈ frames.map (·.actor) := by
  induction frames generalizing frame with
  | nil =>
    have hentry : frame.entry = none := hrooted frame rfl
    simp [trail, hentry] at hc
  | cons below frames ih =>
    obtain ⟨⟨d, -, hentry, hsource, -⟩, hbelow⟩ := hstacked
    rw [trail_cons, hentry] at hc
    obtain hc | hc := List.mem_append.mp hc
    · exact List.mem_cons_of_mem _ (ih hbelow hrooted hc)
    · rw [List.mem_singleton.mp hc, hsource]
      exact List.mem_cons_self

/-- No channel of a trail leaves the innermost actor. -/
theorem dropWhile_trail_of_id_eq (hstacked : Stacked g (frame :: frames))
    (hrooted : Rooted (frame :: frames)) (hnodup : ((frame :: frames).map (·.actor.id)).Nodup)
    (hid : frame.actor.id = target.id) :
    (trail (frame :: frames)).dropWhile (·.source.actor.id != target.id) = [] := by
  refine List.dropWhile_eq_nil_iff.mpr fun c hc => bne_iff_ne.mpr fun hsource => ?_
  obtain ⟨below, hbelow, heq⟩ := List.mem_map.mp (source_mem_of_mem_trail hstacked hrooted hc)
  rw [← heq, ← hid] at hsource
  exact (List.nodup_cons.mp hnodup).1 (List.mem_map.mpr ⟨below, hbelow, hsource⟩)

/-- What is cut out of a stack is the end of its trail. -/
theorem dropWhile_trail (hg : g.WellFormed) (htarget : target ∈ g.actors)
    (hstacked : Stacked g (frame :: frames)) (hrooted : Rooted (frame :: frames))
    (hactors : ∀ f ∈ frame :: frames, f.actor ∈ g.actors)
    (hnodup : ((frame :: frames).map (·.actor.id)).Nodup)
    (hmem : target.id ∈ (frame :: frames).map (·.actor.id)) :
    (trail (frame :: frames)).dropWhile (·.source.actor.id != target.id) =
      unwind (frame :: frames) target := by
  induction frames generalizing frame with
  | nil =>
    have hid : frame.actor.id = target.id := (List.mem_singleton.mp hmem).symm
    rw [dropWhile_trail_of_id_eq hstacked hrooted hnodup hid, unwind_cons, if_pos hid]
  | cons below frames ih =>
    by_cases hid : frame.actor.id = target.id
    · rw [dropWhile_trail_of_id_eq hstacked hrooted hnodup hid, unwind_cons, if_pos hid]
    · obtain ⟨⟨c, -, hentry, hsource, -⟩, hbelow⟩ := hstacked
      have hmem : target.id ∈ (below :: frames).map (·.actor.id) :=
        (List.mem_cons.mp hmem).resolve_left fun heq => hid heq.symm
      have hactors : ∀ f ∈ below :: frames, f.actor ∈ g.actors :=
        fun f hf => hactors f (List.mem_cons_of_mem _ hf)
      obtain ⟨-, hleads, -⟩ := unwind_spec hg htarget hbelow hactors hmem
      rw [trail_cons, hentry, Option.toList_some, List.dropWhile_append,
        ih hbelow hrooted hactors (List.nodup_cons.mp hnodup).2 hmem, unwind_cons frame, if_neg hid,
        hentry, Option.toList_some]
      -- Where nothing was cut out below, the target is the actor from which the channel comes.
      cases hunwind : unwind (below :: frames) target with
      | nil =>
        rw [hunwind] at hleads
        have hbegin : c.source.actor = target := hsource.trans hleads.symm
        simp [hbegin]
      | cons d cs => rfl

end Trail

/-- A recursion that has given colours and has some roots before it is where the search with a stack
is. -/
structure Mirrors (roots : List Actor) (c : Colours) (s : State) : Prop where
  finished_eq : c.finished = s.finished
  visited_iff : ∀ handle,
    handle ∈ c.visited ↔ handle ∈ s.frames.map (·.actor.id) ∨ handle ∈ s.finished
  pending_eq : s.pending.map (·.actor) = roots.filter fun a => !c.visited.contains a.id
  rooted : Rooted s.frames

section Resuming

variable {g : Graph} {roots : List Actor} {c : Colours} {pending rest : List Node} {node : Node}
  {actor : Actor} {entry : Option Channel} {link : Link} {links : List Link} {frames : List Frame}
  {finished : List Handle}

private theorem resume_cons_cons (g : Graph) (roots : List Actor) (actor : Actor)
    (entry : Option Channel) (link : Link) (links : List Link) (frames : List Frame) :
    resume g roots (⟨actor, entry, link :: links⟩ :: frames) =
      follow g (trail (⟨actor, entry, links⟩ :: frames)) link >>= fun _ =>
        resume g roots (⟨actor, entry, links⟩ :: frames) := by
  simp only [resume, Recursion.forM_cons, bind_assoc]
  rfl

private theorem colourRoot_apply (g : Graph) (root : Actor) (c : Colours) :
    colourRoot g root c =
      if root.id ∉ c.visited then g.colour root [] c else some (.ok (), c) := by
  show (if root.id ∉ c.visited then _ else _ : Recursion Colours _ Unit) c = _
  split <;> rfl

private theorem follow_apply (g : Graph) (path : List Channel) (link : Link) (c : Colours) :
    follow g path link c =
      if link.far.actor.id ∉ c.visited then g.colour link.far.actor (path ++ [link.channel]) c
      else if link.far.actor.id ∉ c.finished then
        some (.error (path.dropWhile (·.source.actor.id != link.far.actor.id) ++ [link.channel]), c)
      else some (.ok (), c) := by
  show (if link.far.actor.id ∉ c.visited then _ else if link.far.actor.id ∉ c.finished then _
    else _ : Recursion Colours _ Unit) c = _
  split
  · rfl
  · split <;> rfl

private theorem follow_of_unvisited (path : List Channel) (h : link.far.actor.id ∉ c.visited) :
    follow g path link c = g.colour link.far.actor (path ++ [link.channel]) c := by
  rw [follow_apply, if_pos h]

private theorem follow_of_finished (path : List Channel) (h : link.far.actor.id ∈ c.visited)
    (hdone : link.far.actor.id ∈ c.finished) : follow g path link c = some (.ok (), c) := by
  rw [follow_apply, if_neg (not_not_intro h), if_neg (not_not_intro hdone)]

private theorem follow_of_unfinished (path : List Channel) (h : link.far.actor.id ∈ c.visited)
    (hdone : link.far.actor.id ∉ c.finished) :
    follow g path link c =
      some (.error (path.dropWhile (·.source.actor.id != link.far.actor.id) ++ [link.channel]),
        c) := by
  rw [follow_apply, if_neg (not_not_intro h), if_pos hdone]

/-- To colour an actor is to put it on the stack. -/
theorem colour_resume (g : Graph) (roots : List Actor) (frames : List Frame) (a : Actor)
    (entry : Option Channel) (c : Colours) :
    (g.colour a (trail frames ++ entry.toList) >>= fun _ => resume g roots frames) c =
      resume g roots (⟨a, entry, g.links a .output⟩ :: frames) (c.visit a) := by
  rw [colour_eq, resume, trail_cons]
  simp only [bind_assoc]
  rfl

private theorem forM_colourRoot_of_visited {skipped : List Actor}
    (h : ∀ a ∈ skipped, a.id ∈ c.visited) (later : List Actor) :
    (skipped ++ later).forM (colourRoot g) c = later.forM (colourRoot g) c := by
  induction skipped with
  | nil => rfl
  | cons a skipped ih =>
    obtain ⟨ha, hskipped⟩ := List.forall_mem_cons.mp h
    have hstep : colourRoot g a c = some (.ok (), c) := by
      rw [colourRoot_apply, if_neg (not_not_intro ha)]
    rw [List.cons_append, Recursion.forM_cons, Recursion.bind_of_ok hstep, ih hskipped]

/-- The roots that are still to be visited are those that were before, without the one that is
visited now. -/
theorem filter_visit (roots : List Actor) (c : Colours) (a : Actor) :
    roots.filter (fun b => !(c.visit a).visited.contains b.id) =
      (roots.filter fun b => !c.visited.contains b.id).filter (·.id != a.id) := by
  rw [List.filter_filter]
  refine List.filter_congr fun b _ => ?_
  rw [Colours.visit, List.contains_cons, Bool.not_or]
  rfl

/-- No actor has two colours. -/
theorem Coloured.nodup (hg : g.WellFormed) (h : Coloured g ⟨pending, frames, finished⟩) :
    (waiting pending).Nodup ∧ (frames.map (·.actor.id)).Nodup ∧
      ∀ handle ∈ waiting pending, handle ∉ frames.map (·.actor.id) ∧ handle ∉ finished := by
  have hcolours := h.colours.nodup_iff.mpr hg.nodup_actor_ids
  obtain ⟨hunfinished, -, hfinished⟩ := List.nodup_append.mp hcolours
  obtain ⟨hwaiting, hstack, hdisjoint⟩ := List.nodup_append.mp hunfinished
  exact ⟨hwaiting, hstack, fun handle hmem => ⟨fun hon => hdisjoint _ hmem _ hon rfl,
    fun hdone => hfinished _ (List.mem_append_left _ hmem) _ hdone rfl⟩⟩

/-- The actor that is taken is the one at the far end of the link, with all its outputs. -/
theorem Coloured.taken_eq (hg : g.WellFormed)
    (h : Coloured g ⟨pending, ⟨actor, entry, link :: links⟩ :: frames, finished⟩)
    (htake : take? link.far.actor pending = some (node, rest)) :
    node.actor = link.far.actor ∧ node.links = g.links link.far.actor .output := by
  obtain ⟨hmem, hlinks⟩ := h.waiting_mem node (mem_of_take? htake)
  obtain ⟨hactor, hleft⟩ := h.stack_mem _ List.mem_cons_self
  obtain ⟨hchannel, -, -⟩ := (hg.mem_links hactor).mp (hleft List.mem_cons_self)
  have heq := hg.actor_eq_of_id hmem (hg.far_mem hchannel) (take?_eq_some htake).1
  exact ⟨heq, heq ▸ hlinks⟩

namespace Mirrors

private theorem root {root : Node} (hg : g.WellFormed)
    (hcoloured : Coloured g ⟨root :: rest, [], finished⟩)
    (h : Mirrors roots c ⟨root :: rest, [], finished⟩) :
    ∃ later, resume g roots [] c =
        resume g later [⟨root.actor, none, root.links⟩] (c.visit root.actor) ∧
      Mirrors later (c.visit root.actor) ⟨rest, [⟨root.actor, none, root.links⟩], finished⟩ := by
  obtain ⟨skipped, later, rfl, hskipped, hnew, hlater⟩ :=
    List.filter_eq_cons_iff.mp h.pending_eq.symm
  have hunvisited : root.actor.id ∉ c.visited := by simpa using hnew
  refine ⟨later, ?_, ?_⟩
  · have hroot : colourRoot g root.actor c = g.colour root.actor [] c := by
      rw [colourRoot_apply, if_pos hunvisited]
    rw [resume, forM_colourRoot_of_visited fun a ha => by simpa using hskipped a ha,
      Recursion.forM_cons, Recursion.bind_apply_congr hroot,
      (hcoloured.waiting_mem root List.mem_cons_self).2]
    exact colour_resume g later [] root.actor none c
  · obtain ⟨hhead, -⟩ := List.nodup_cons.mp (hcoloured.nodup hg).1
    refine ⟨h.finished_eq, fun handle => ?_, ?_, fun frame hframe => ?_⟩
    · have hvisited := h.visited_iff handle
      simp only [Colours.visit, List.map_cons, List.map_nil, List.mem_cons, List.not_mem_nil,
        or_false, false_or] at hvisited ⊢
      rw [hvisited]
    · rw [filter_visit, hlater, List.filter_eq_self.mpr]
      intro a ha
      obtain ⟨other, hother, rfl⟩ := List.mem_map.mp ha
      exact bne_iff_ne.mpr fun hid => hhead (List.mem_map.mpr ⟨other, hother, hid⟩)
    · cases hframe
      rfl

private theorem finish (h : Mirrors roots c ⟨pending, ⟨actor, entry, []⟩ :: frames, finished⟩) :
    Mirrors roots (c.finish actor) ⟨pending, frames, actor.id :: finished⟩ where
  finished_eq := congrArg (actor.id :: ·) h.finished_eq
  visited_iff := fun handle => by
    have hvisited := h.visited_iff handle
    simp only [Colours.finish, List.map_cons, List.mem_cons] at hvisited ⊢
    rw [hvisited, or_assoc, or_left_comm]
  pending_eq := h.pending_eq
  rooted := h.rooted.tail

private theorem enter (hg : g.WellFormed)
    (hcoloured : Coloured g ⟨pending, ⟨actor, entry, link :: links⟩ :: frames, finished⟩)
    (h : Mirrors roots c ⟨pending, ⟨actor, entry, link :: links⟩ :: frames, finished⟩)
    (htake : take? link.far.actor pending = some (node, rest)) :
    Mirrors roots (c.visit link.far.actor)
      ⟨rest, ⟨node.actor, some link.channel, node.links⟩ :: ⟨actor, entry, links⟩ :: frames,
        finished⟩ where
  finished_eq := h.finished_eq
  visited_iff := fun handle => by
    have hvisited := h.visited_iff handle
    simp only [Colours.visit, List.map_cons, List.mem_cons, or_assoc] at hvisited ⊢
    rw [hvisited, (hcoloured.taken_eq hg htake).1]
  pending_eq := by
    rw [filter_visit, ← h.pending_eq, List.filter_map,
      take?_rest_eq htake (hcoloured.nodup hg).1]
    rfl
  rooted := h.rooted.congr

/-- An actor that waits was not visited. -/
theorem unvisited (hg : g.WellFormed) (hcoloured : Coloured g ⟨pending, frames, finished⟩)
    (h : Mirrors roots c ⟨pending, frames, finished⟩)
    (htake : take? link.far.actor pending = some (node, rest)) :
    link.far.actor.id ∉ c.visited := by
  intro hvisited
  have hwaiting : link.far.actor.id ∈ waiting pending :=
    List.mem_map.mpr ⟨node, mem_of_take? htake, (take?_eq_some htake).1⟩
  obtain ⟨hstack, hunfinished⟩ := (hcoloured.nodup hg).2.2 _ hwaiting
  exact ((h.visited_iff _).mp hvisited).elim hstack hunfinished

private theorem dropLink
    (h : Mirrors roots c ⟨pending, ⟨actor, entry, link :: links⟩ :: frames, finished⟩) :
    Mirrors roots c ⟨pending, ⟨actor, entry, links⟩ :: frames, finished⟩ where
  finished_eq := h.finished_eq
  visited_iff := h.visited_iff
  pending_eq := h.pending_eq
  rooted := h.rooted.congr

end Mirrors

/-- A recursion ends as a search: all actors are finished in the same order, or the same channels
are found to close a cycle. -/
def EndsAs (outcome : Option (Except (List Channel) Unit × Colours)) :
    Verdict (List Handle) DirectedCycle → Prop
  | .success finished => ∃ visited, outcome = some (.ok (), ⟨visited, finished⟩)
  | .violated cycle => ∃ c, outcome = some (.error cycle.channels, c)

/-- The recursion takes up from a stack what the search does. -/
theorem resume_endsAs (hg : g.WellFormed) (hcoloured : Coloured g ⟨pending, frames, finished⟩)
    (h : Mirrors roots c ⟨pending, frames, finished⟩) :
    EndsAs (resume g roots frames c) (visit pending frames finished) := by
  induction pending, frames, finished using visit.induct generalizing roots c with
  | case1 finished =>
    have hvisited : ∀ a ∈ roots, a.id ∈ c.visited := by
      simpa using (List.filter_eq_nil_iff.mp h.pending_eq.symm)
    have hroots := forM_colourRoot_of_visited hvisited (g := g) []
    rw [List.append_nil] at hroots
    rw [visit, resume, hroots]
    have hfinished : c.finished = finished := h.finished_eq
    exact ⟨c.visited, hfinished ▸ rfl⟩
  | case2 finished root rest ih =>
    obtain ⟨later, hresume, hlater⟩ := h.root hg hcoloured
    rw [visit, hresume]
    exact ih hcoloured.root hlater
  | case3 pending finished actor entry frames ih =>
    rw [visit]
    exact ih (hcoloured.finish hg) h.finish
  | case4 pending finished actor entry link links frames node rest htake ih =>
    obtain ⟨hactor, hlinks⟩ := hcoloured.taken_eq hg htake
    have hnew : link.far.actor.id ∉ c.visited := h.unvisited hg hcoloured htake
    have hstep : visit pending (⟨actor, entry, link :: links⟩ :: frames) finished =
        visit rest (⟨node.actor, some link.channel, node.links⟩ :: ⟨actor, entry, links⟩ :: frames)
          finished := by
      rw [visit, htake]
    have hresume : resume g roots (⟨actor, entry, link :: links⟩ :: frames) c =
        resume g roots
          (⟨node.actor, some link.channel, node.links⟩ :: ⟨actor, entry, links⟩ :: frames)
          (c.visit link.far.actor) := by
      rw [resume_cons_cons, Recursion.bind_apply_congr (follow_of_unvisited _ hnew), hactor, hlinks]
      exact colour_resume g roots _ link.far.actor (some link.channel) c
    rw [hstep, hresume]
    exact ih (hcoloured.enter hg htake) (h.enter hg hcoloured htake)
  | case5 pending finished actor entry link links frames htake hdone ih =>
    have hmem : link.far.actor.id ∈ finished := List.contains_iff_mem.mp hdone
    have hvisited : link.far.actor.id ∈ c.visited := (h.visited_iff _).mpr (.inr hmem)
    have hstep : visit pending (⟨actor, entry, link :: links⟩ :: frames) finished =
        visit pending (⟨actor, entry, links⟩ :: frames) finished := by
      rw [visit, htake, if_pos hdone]
    rw [hstep, resume_cons_cons,
      Recursion.bind_of_ok (follow_of_finished _ hvisited (h.finished_eq ▸ hmem))]
    exact ih (hcoloured.skip hmem) h.dropLink
  | case6 pending finished actor entry link links frames htake hdone =>
    have hunfinished : link.far.actor.id ∉ finished := by simpa using hdone
    have hclosed : State.step ⟨pending, ⟨actor, entry, link :: links⟩ :: frames, finished⟩ =
        .closed (⟨actor, entry, links⟩ :: frames) link := by
      simp [State.step, htake, hunfinished]
    obtain ⟨frame, below, hframes, hchannel, -, -, hstacked, hactors, -, hmem⟩ :=
      hcoloured.closing hg hclosed
    have hfar := hg.far_mem hchannel
    have hvisited : link.far.actor.id ∈ c.visited := (h.visited_iff _).mpr (.inl hmem)
    have hpath := dropWhile_trail hg hfar hstacked h.rooted.congr hactors
      (hcoloured.nodup hg).2.1 hmem
    have hstep : visit pending (⟨actor, entry, link :: links⟩ :: frames) finished =
        .violated ⟨unwind (⟨actor, entry, links⟩ :: frames) link.far.actor ++ [link.channel],
          by simp⟩ := by
      rw [visit, htake, if_neg hdone]
    rw [hstep, resume_cons_cons, Recursion.bind_of_error
      (follow_of_unfinished _ hvisited (h.finished_eq ▸ hunfinished)), hpath]
    exact ⟨c, rfl⟩

end Resuming

/-- The recursion over all actors and the check come to the same. -/
theorem colourAll_endsAs {g : Graph} (hg : g.WellFormed) :
    EndsAs (colourAll g ⟨[], []⟩) (check g) := by
  have hmirrors : Mirrors g.actors ⟨[], []⟩ ⟨nodes g (g.links · .output), [], []⟩ :=
    ⟨rfl, by simp, by simp [nodes, Function.comp_def], fun _ hframe => nomatch hframe⟩
  exact resume_endsAs hg (.start g) hmirrors

/-- On success the actors of the graph were all finished. -/
theorem finished_perm {g : Graph} (hg : g.WellFormed) {finished : List Handle}
    (h : check g = .success finished) : finished.Perm (g.actors.map (·.id)) := by
  obtain ⟨s, done, hs, hstep, hcheck⟩ | ⟨_, _, _, _, _, hcheck⟩ := check_cases g
  · obtain rfl : finished = done := by
      rw [h] at hcheck
      injection hcheck
    have hcolours := (hs.coloured hg).colours
    rw [State.step_eq_live hstep] at hcolours
    exact hcolours
  · rw [h] at hcheck
    cases hcheck

/-- `checkLiveness` and the recursion `colourAll` agree on every graph that can be built: both
succeed, with all actors finished in the same order, or both report the same channels. -/
theorem checkLiveness_recurses {w : Workspace} (hw : w.graph.Reachable) :
    ∃ verdict w' colours, w.checkLiveness = .ok verdict w' ∧
      match verdict with
      | .success () =>
        colourAll w.graph ⟨[], []⟩ = some (.ok (), colours) ∧
          check w.graph = .success colours.finished ∧
          ∀ a ∈ w.graph.actors, a.id ∈ colours.finished
      | .violated cycle =>
        colourAll w.graph ⟨[], []⟩ = some (.error cycle.channels, colours) := by
  have hends := colourAll_endsAs hw.wellFormed
  have hrun := checkLiveness_eq w
  cases hcheck : check w.graph with
  | success finished =>
    rw [hcheck] at hends hrun
    obtain ⟨visited, hcolour⟩ := hends
    have hperm := finished_perm hw.wellFormed hcheck
    exact ⟨_, _, ⟨visited, finished⟩, hrun, hcolour, rfl,
      fun a ha => hperm.mem_iff.mpr (List.mem_map_of_mem ha)⟩
  | violated cycle =>
    rw [hcheck] at hends hrun
    obtain ⟨colours, hcolour⟩ := hends
    exact ⟨_, _, colours, hrun, hcolour⟩

theorem checkLiveness_recurses_feedback :
    feedback.Reachable ∧ ∃ cycle w' colours,
      Workspace.checkLiveness ⟨feedback, .empty, .empty, []⟩ = .ok (.violated cycle) w' ∧
        colourAll feedback ⟨[], []⟩ = some (.error cycle.channels, colours) := by
  have hreachable : feedback.Reachable := (Graph.Reachable.empty none).performAll _
  have hfails : (check feedback).isSuccess = false := by decide +kernel
  obtain ⟨verdict, w', colours, hrun, hends⟩ :=
    checkLiveness_recurses (w := ⟨feedback, .empty, .empty, []⟩) hreachable
  cases verdict with
  | success _ =>
    rw [hends.2.1] at hfails
    cases hfails
  | violated cycle => exact ⟨hreachable, cycle, w', colours, hrun, hends⟩

end Liveness

end Dataflow
