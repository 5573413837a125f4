import Dataflow.Proofs.Balance.Coverage
import Dataflow.Proofs.Balance.Soundness
import Dataflow.Proofs.Recursion

namespace Dataflow

open Search Dataflow.Action

namespace Balance

/-- How far a propagation has come: the rates that were parsed, the counts, the channels that
carried them, and the channel over which each actor but the start got its count. -/
structure Progress where
  rates : RateCache
  fractions : Fractions
  visited : List Handle
  predecessors : List (Handle × Channel)

/-- The channel over which each actor but the start was entered. -/
def predecessors (tree : List Link) : List (Handle × Channel) :=
  tree.map fun link => (link.far.actor.id, link.channel)

/-- The count of `a`, carried over one of its links. -/
def carry (g : Graph) (fractions : Fractions) (a : Actor) (link : Link) :
    Action RateCache Ratio := do
  let nearRate ← RateCache.rate g link.near.port
  let farRate ← RateCache.rate g link.far.port
  let near ← fraction fractions a
  return near * .of nearRate farRate

namespace Progress

variable {α : Type}

/-- Whether an actor has a count. -/
def reaches (p : Progress) (a : Actor) : Bool :=
  (p.fractions.lookup a.id).isSome

/-- Note down the count that a link carries. -/
def note (p : Progress) (link : Link) (f : Ratio) : Progress where
  rates := p.rates
  fractions := Assoc.insert link.far.actor.id f p.fractions
  visited := p.visited ++ [link.channel.id]
  predecessors := Assoc.insert link.far.actor.id link.channel p.predecessors

/-- Carry out an action on the rates. -/
def onRates (action : Action RateCache α) : Recursion Progress Failure α := fun p =>
  match action p.rates with
  | .ok a rates => some (.ok a, { p with rates })
  | .error e rates => some (.error e, { p with rates })

end Progress

/-- Carry the count of `a` over one of its links. -/
def enter (g : Graph) (a : Actor) (link : Link) : Recursion Progress Failure Unit := do
  let f ← Progress.onRates (carry g (← get).fractions a link)
  modify (·.note link f)

end Balance

open Balance

/-- The stack of a propagation: the actors that it is at, the last one first, each with its links
that were not looked at yet. -/
abbrev Balance.Stack := List (Actor × List Link)

/-- Carry the count of `a` over its links, and go on from each actor that gets a count. -/
def Graph.visit (g : Graph) (a : Actor) : Recursion Progress Failure Unit :=
  (g.allLinks a).forM fun link => do
    unless (← get).reaches link.far.actor do
      enter g a link
      g |>.visit link.far.actor
partial_fixpoint

/-- The loop of the propagation over its stack. An actor without links left is taken off, and a link
to an actor that has a count is passed over; over any other link the count is carried, and the actor
that gets it goes on the stack. -/
def Graph.searchOn (g : Graph) : (stack : Stack) → Recursion Progress Failure Unit
  | [] => return
  | (_, []) :: stack => g |>.searchOn stack
  | (a, link :: links) :: stack => do
    if (← get).reaches link.far.actor then
      g |>.searchOn ((a, links) :: stack)
    else
      enter g a link
      g |>.searchOn ((link.far.actor, g.allLinks link.far.actor) :: (a, links) :: stack)
partial_fixpoint

namespace Balance

private theorem enter_apply (g : Graph) (a : Actor) (link : Link) (p : Progress) :
    enter g a link p =
      match carry g p.fractions a link p.rates with
      | .ok f rates => some (.ok (), Progress.note { p with rates } link f)
      | .error e rates => some (.error e, { p with rates }) := by
  show ((Progress.onRates (carry g p.fractions a link) >>= _) : Recursion Progress Failure Unit) p =
    _
  rw [Recursion.bind_apply, Progress.onRates]
  cases carry g p.fractions a link p.rates <;> rfl

private theorem propagate_cons (g : Graph) (fractions : Fractions) (link : Link)
    (tree : List Link) : propagate g fractions (link :: tree) =
      carry g fractions link.near.actor link >>= fun f =>
        propagate g (fractions ++ [(link.far.actor.id, f)]) tree := by
  rw [propagate, carry]
  simp only [bind_assoc, pure_bind]

/-- What the recursion does at a link: it enters and visits an actor that has no count. -/
def follow (g : Graph) (link : Link) : Recursion Progress Failure Unit := do
  unless (← get).reaches link.far.actor do
    enter g link.near.actor link
    g.visit link.far.actor

/-- The recursion with the links of a stack still before it. -/
def resume (g : Graph) (stack : Stack) : Recursion Progress Failure Unit :=
  stack.forM fun frame => frame.2.forM (follow g)

/-- What the recursion and the loop have in common: an actor that has a count is passed over, any
other is entered, and its links come next. -/
structure Searches (g : Graph)
    (search : Stack → Recursion Progress Failure Unit) : Prop where
  finish : search [] = pure ()
  pop : ∀ a stack, search ((a, []) :: stack) = search stack
  skip : ∀ {a link links stack p}, p.reaches link.far.actor = true →
    search ((a, link :: links) :: stack) p = search ((a, links) :: stack) p
  push : ∀ {a link links stack p}, link.near.actor = a → link.far.actor ∈ g.actors →
    p.reaches link.far.actor = false →
    search ((a, link :: links) :: stack) p = (enter g a link >>= fun _ =>
      search ((link.far.actor, g.allLinks link.far.actor) :: (a, links) :: stack)) p

/-- Every link of a stack leads away from the actor that it stands with. -/
def Outgoing (stack : Stack) : Prop :=
  ∀ frame ∈ stack, ∀ link ∈ frame.2, link.near.actor = frame.1

/-- Enter the actors of a tree one after the other. -/
def enterAll (g : Graph) (tree : List Link) : Recursion Progress Failure Unit :=
  tree.forM fun link => enter g link.near.actor link

/-- A search that has followed some links, and what is known of it: those links form a tree, it has
the other actors before it, and it has missed nothing. -/
structure Underway (g : Graph) (start : Actor) (sofar : List Link) (pending : List Node)
    (frames : List (List Link)) : Prop where
  tree : Tree g start sofar
  frontier : Frontier g (reached start sofar) pending frames
  exhaustive : Exhaustive g (reached start sofar) pending frames

/-- The actors that have counts are those that some links have reached. -/
def Progress.Covers (p : Progress) (start : Actor) (tree : List Link) : Prop :=
  p.fractions.map Prod.fst = (reached start tree).map (·.id)

section Following

variable {g : Graph} {start : Actor} {sofar : List Link} {pending rest : List Node} {node : Node}
  {frames : List (List Link)} {stack : Stack} {links : List Link} {link : Link} {p : Progress}

private theorem visit_eq (hg : g.WellFormed) {a : Actor} (ha : a ∈ g.actors) :
    g.visit a = (g.allLinks a).forM (follow g) := by
  rw [Graph.visit]
  refine Recursion.forM_congr fun link hlink => ?_
  obtain ⟨-, rfl⟩ := (hg.mem_allLinks ha).mp hlink
  rfl

private theorem resume_cons (g : Graph) (a : Actor) (link : Link) (links : List Link)
    (stack : Stack) : resume g ((a, link :: links) :: stack) =
      follow g link >>= fun _ => resume g ((a, links) :: stack) := by
  simp only [resume, Recursion.forM_cons, bind_assoc]

private theorem follow_of_reaches (h : p.reaches link.far.actor = true) :
    follow g link p = some (.ok (), p) := by
  rw [follow, Recursion.get_bind_apply, h]
  rfl

private theorem follow_of_not_reaches (h : p.reaches link.far.actor = false) :
    follow g link p = (enter g link.near.actor link >>= fun _ => g.visit link.far.actor) p := by
  rw [follow, Recursion.get_bind_apply, h]
  rfl

private theorem resume_searches (hg : g.WellFormed) : Searches g (resume g) where
  finish := rfl
  pop _ _ := rfl
  skip hreaches := by
    rw [resume_cons, Recursion.bind_of_ok (follow_of_reaches hreaches)]
  push hnear hfar hnew := by
    subst hnear
    rw [resume_cons, Recursion.bind_apply_congr (follow_of_not_reaches hnew), bind_assoc,
      visit_eq hg hfar]
    rfl

private theorem searchOn_searches (g : Graph) : Searches g g.searchOn where
  finish := by rw [Graph.searchOn]
  pop _ _ := by rw [Graph.searchOn]
  skip hreaches := by
    rw [Graph.searchOn, Recursion.get_bind_apply, if_pos hreaches]
  push _ _ hnew := by
    rw [Graph.searchOn, Recursion.get_bind_apply, if_neg (Bool.eq_false_iff.mp hnew)]

namespace Underway

private theorem pop (h : Underway g start sofar pending ([] :: frames)) :
    Underway g start sofar pending frames :=
  ⟨h.tree, h.frontier.popFrame, h.exhaustive.dropLinks fun _ => .inr⟩

private theorem skip (hg : g.WellFormed)
    (h : Underway g start sofar pending ((link :: links) :: frames))
    (htake : take? link.far.actor pending = none) :
    link.far.actor ∈ reached start sofar ∧ Underway g start sofar pending (links :: frames) := by
  obtain ⟨hfound, hexhaustive⟩ := h.exhaustive.skipLink hg h.frontier htake
  exact ⟨hfound, h.tree, h.frontier.skipLink, hexhaustive⟩

private theorem grow (hg : g.WellFormed)
    (h : Underway g start sofar pending ((link :: links) :: frames))
    (htake : take? link.far.actor pending = some (node, rest)) :
    Underway g start (sofar ++ [link]) rest (node.links :: links :: frames) := by
  have hlink := h.frontier.leads _ List.mem_cons_self link List.mem_cons_self
  have hfrontier := h.frontier.followLink hg htake
  have hexhaustive := h.exhaustive.followLink hg h.frontier htake
  rw [← reached_concat] at hfrontier hexhaustive
  exact ⟨h.tree.grow hlink.1 hlink.2 (h.frontier.far_notMem hg htake), hfrontier, hexhaustive⟩

/-- The links of an actor that is taken are all its links. -/
theorem links_eq (hg : g.WellFormed)
    (h : Underway g start sofar pending ((link :: links) :: frames))
    (htake : take? link.far.actor pending = some (node, rest)) :
    link.far.actor ∈ g.actors ∧ node.links = g.allLinks link.far.actor := by
  have hnode := h.frontier.waiting_mem node (mem_of_take? htake)
  rwa [h.frontier.taken_eq hg htake] at hnode

end Underway

private theorem Progress.Covers.reaches_iff (h : p.Covers start sofar) {a : Actor} :
    p.reaches a = true ↔ a.id ∈ (reached start sofar).map (·.id) := by
  rw [Progress.reaches, ← h, List.lookup_isSome_iff]
  simp

/-- The actor at the end of a link that is entered gets a count. -/
theorem Progress.Covers.enter {p' : Progress} {a : Actor} (h : p.Covers start sofar)
    (hnew : p.reaches link.far.actor = false)
    (henter : Balance.enter g a link p = some (.ok (), p')) :
    p'.Covers start (sofar ++ [link]) := by
  have hkey : link.far.actor.id ∉ p.fractions.map Prod.fst := by
    rw [h, ← h.reaches_iff, hnew]
    exact Bool.false_ne_true
  rw [enter_apply] at henter
  split at henter <;> cases henter
  show (Assoc.insert _ _ p.fractions).map Prod.fst = _
  rw [Assoc.keys_insert, if_neg hkey, h, reached_concat, List.map_append]
  rfl

namespace Outgoing

private theorem skip {a : Actor} (h : Outgoing ((a, link :: links) :: stack)) :
    Outgoing ((a, links) :: stack) := by
  obtain ⟨hhead, htail⟩ := List.forall_mem_cons.mp h
  exact List.forall_mem_cons.mpr ⟨fun l hl => hhead l (List.mem_cons_of_mem _ hl), htail⟩

private theorem push (hg : g.WellFormed) {a b : Actor} (h : Outgoing ((a, link :: links) :: stack))
    (hb : b ∈ g.actors) : Outgoing ((b, g.allLinks b) :: (a, links) :: stack) :=
  List.forall_mem_cons.mpr ⟨fun _ hl => ((hg.mem_allLinks hb).mp hl).2, h.skip⟩

end Outgoing

/-- From any stack, a search of the kind enters the actors of the links that `explore` has still to
follow. -/
theorem Searches.eq_enterAll (hg : g.WellFormed)
    {search : Stack → Recursion Progress Failure Unit} (hsearch : Searches g search)
    (h : Underway g start sofar pending (stack.map Prod.snd)) (hout : Outgoing stack)
    (hp : p.Covers start sofar) :
    search stack p = enterAll g (explore pending (stack.map Prod.snd)) p := by
  -- By the recursion of `explore`. Where it skips a link, the actor has a count; where it follows
  -- one, both enter the actor, and the search then has the links of that actor before it.
  generalize hframes : stack.map Prod.snd = frames at h ⊢
  induction pending, frames using explore.induct generalizing stack sofar p with
  | case1 pending =>
    obtain rfl := List.map_eq_nil_iff.mp hframes
    rw [explore, hsearch.finish]
    rfl
  | case2 pending frames ih =>
    obtain ⟨⟨a, links⟩, stack, rfl, rfl, rfl⟩ := List.map_eq_cons_iff.mp hframes
    rw [explore, hsearch.pop]
    exact ih (List.forall_mem_cons.mp hout).2 hp rfl h.pop
  | case3 pending link links frames htake ih =>
    obtain ⟨⟨a, all⟩, stack, rfl, rfl, rfl⟩ := List.map_eq_cons_iff.mp hframes
    obtain ⟨hfound, hrest⟩ := h.skip hg htake
    have hreaches := hp.reaches_iff.mpr (List.mem_map_of_mem hfound)
    rw [hsearch.skip hreaches, explore, htake]
    exact ih hout.skip hp rfl hrest
  | case4 pending link links frames node rest htake ih =>
    obtain ⟨⟨a, all⟩, stack, rfl, rfl, rfl⟩ := List.map_eq_cons_iff.mp hframes
    obtain ⟨hfar, hlinks⟩ := h.links_eq hg htake
    have hnew : p.reaches link.far.actor = false := by
      refine Bool.eq_false_iff.mpr fun hreaches => ?_
      obtain ⟨b, hb, hid⟩ := List.mem_map.mp (hp.reaches_iff.mp hreaches)
      have heq := hg.actor_eq_of_id (h.tree.reached_subset hg hb) hfar hid
      exact h.frontier.far_notMem hg htake (heq ▸ hb)
    obtain rfl := hout _ List.mem_cons_self link List.mem_cons_self
    rw [hsearch.push rfl hfar hnew, explore, htake]
    refine Recursion.bind_congr fun _ p' henter => ?_
    exact ih (hout.push hg hfar) (hp.enter hnew henter) (by rw [hlinks]; rfl) (h.grow hg htake)

end Following

/-- The progress of a propagation that begins at `start`. -/
def Progress.outset (start : Actor) (rates : RateCache) : Progress :=
  ⟨rates, [(start.id, .one)], [], []⟩

/-- The progress when counts were carried over the links of a tree. -/
def Progress.further (p : Progress) (tree : List Link) (fractions : Fractions)
    (rates : RateCache) : Progress where
  rates := rates
  fractions := fractions
  visited := p.visited ++ tree.map (·.channel.id)
  predecessors := p.predecessors ++ Balance.predecessors tree

section Entering

variable {g : Graph} {tree : List Link} {p : Progress}

/-- None of the actors that the links of a tree enter is known yet, and each is entered once. -/
structure Progress.Fresh (p : Progress) (tree : List Link) : Prop where
  fractions : (p.fractions.map Prod.fst ++ tree.map (·.far.actor.id)).Nodup
  predecessors : (p.predecessors.map Prod.fst ++ tree.map (·.far.actor.id)).Nodup

private theorem Progress.Fresh.note_eq {link : Link} (h : p.Fresh (link :: tree)) (f : Ratio) :
    p.note link f = p.further [link] (p.fractions ++ [(link.far.actor.id, f)]) p.rates ∧
      (p.note link f).Fresh tree := by
  have hfractions : link.far.actor.id ∉ p.fractions.map Prod.fst := fun hmem =>
    (List.nodup_append.mp h.fractions).2.2 _ hmem _ List.mem_cons_self rfl
  have hpredecessors : link.far.actor.id ∉ p.predecessors.map Prod.fst := fun hmem =>
    (List.nodup_append.mp h.predecessors).2.2 _ hmem _ List.mem_cons_self rfl
  have hnote : p.note link f =
      p.further [link] (p.fractions ++ [(link.far.actor.id, f)]) p.rates := by
    rw [note, Assoc.insert_of_notMem hfractions, Assoc.insert_of_notMem hpredecessors]
    rfl
  refine ⟨hnote, ?_⟩
  rw [hnote]
  refine ⟨by simpa [further] using h.fractions, ?_⟩
  simpa [further, Balance.predecessors] using h.predecessors

private theorem Progress.further_nil (p : Progress) (fractions : Fractions) (rates : RateCache) :
    p.further [] fractions rates = { p with fractions, rates } := by
  simp [further, Balance.predecessors]

private theorem Progress.further_further (p : Progress) (link : Link) (f f' : Fractions)
    (rates rates' : RateCache) :
    (p.further [link] f rates).further tree f' rates' = p.further (link :: tree) f' rates' := by
  simp [further, Balance.predecessors]

private theorem enterAll_cons (g : Graph) (link : Link) (tree : List Link) :
    enterAll g (link :: tree) = enter g link.near.actor link >>= fun _ => enterAll g tree := rfl

private theorem Progress.Fresh.enter_eq_ok {link : Link} {f : Ratio} {rates : RateCache}
    (h : p.Fresh (link :: tree))
    (hcarry : carry g p.fractions link.near.actor link p.rates = .ok f rates) :
    ∃ p', enter g link.near.actor link p = some (.ok (), p') ∧
      p' = p.further [link] (p.fractions ++ [(link.far.actor.id, f)]) rates ∧ p'.Fresh tree := by
  rw [enter_apply, hcarry]
  have hfresh : Progress.Fresh { p with rates } (link :: tree) := ⟨h.fractions, h.predecessors⟩
  exact ⟨_, rfl, hfresh.note_eq f⟩

/-- Counts that are carried over a tree are those of its actors when they are entered one after the
other. -/
theorem enterAll_of_ok {fractions : Fractions} {rates : RateCache} (h : p.Fresh tree)
    (hrun : propagate g p.fractions tree p.rates = .ok fractions rates) :
    enterAll g tree p = some (.ok (), p.further tree fractions rates) := by
  induction tree generalizing p with
  | nil =>
    cases hrun
    rw [Progress.further_nil]
    rfl
  | cons link tree ih =>
    rw [propagate_cons] at hrun
    obtain ⟨f, kept, hcarry, hrun⟩ := bind_eq_ok_iff.mp hrun
    obtain ⟨p', henter, rfl, hfresh⟩ := h.enter_eq_ok hcarry
    rw [enterAll_cons, Recursion.bind_of_ok henter, ih hfresh hrun, Progress.further_further]

/-- When a count cannot be carried over a link, entering the actors of the tree fails there as
well. -/
theorem enterAll_of_error {e : Failure} {rates : RateCache} (h : p.Fresh tree)
    (hrun : propagate g p.fractions tree p.rates = .error e rates) :
    ∃ before link after fractions kept, tree = before ++ link :: after ∧
      propagate g p.fractions before p.rates = .ok fractions kept ∧
      carry g fractions link.near.actor link kept = .error e rates ∧
      enterAll g tree p = some (.error e, p.further before fractions rates) := by
  induction tree generalizing p with
  | nil => cases hrun
  | cons link tree ih =>
    rw [propagate_cons] at hrun
    obtain hcarry | ⟨f, kept, hcarry, hrun⟩ := bind_eq_error_iff.mp hrun
    · refine ⟨[], link, tree, p.fractions, p.rates, rfl, rfl, hcarry, ?_⟩
      have henter := enter_apply g link.near.actor link p
      rw [hcarry] at henter
      rw [enterAll_cons, Recursion.bind_of_error henter, Progress.further_nil]
    · obtain ⟨p', henter, rfl, hfresh⟩ := h.enter_eq_ok hcarry
      obtain ⟨before, last, after, fractions, cache, rfl, hbefore, hlast, hall⟩ := ih hfresh hrun
      refine ⟨link :: before, last, after, fractions, cache, rfl, ?_, hlast, ?_⟩
      · rw [propagate_cons]
        exact bind_eq_ok_iff.mpr ⟨f, kept, hcarry, hbefore⟩
      · rw [enterAll_cons, Recursion.bind_of_ok henter, hall, Progress.further_further]

end Entering

variable {g : Graph} {start : Actor}

private theorem Searches.start_eq (hg : g.WellFormed) (hstart : start ∈ g.actors)
    {search : Stack → Recursion Progress Failure Unit} (hsearch : Searches g search)
    (cache : RateCache) :
    search [(start, g.allLinks start)] (.outset start cache) =
      enterAll g (spanningTree g start) (.outset start cache) := by
  obtain ⟨node, rest, htake, hlinks, hfrontier, hexhaustive⟩ := exists_exhaustive hg hstart
  have hcovers : (Progress.outset start cache).Covers start [] := rfl
  have hout : Outgoing [(start, g.allLinks start)] := fun frame hframe link hlink => by
    obtain rfl := List.mem_singleton.mp hframe
    exact ((hg.mem_allLinks hstart).mp hlink).2
  rw [hlinks] at hfrontier hexhaustive
  rw [hsearch.eq_enterAll hg ⟨.root hstart, hfrontier, hexhaustive⟩ hout hcovers, spanningTree,
    htake, ← hlinks]
  rfl

private theorem visit_start (hg : g.WellFormed) (hstart : start ∈ g.actors) (cache : RateCache) :
    g.visit start (.outset start cache) =
      enterAll g (spanningTree g start) (.outset start cache) := by
  have hresume : g.visit start = resume g [(start, g.allLinks start)] := by
    rw [visit_eq hg hstart, resume, Recursion.forM_cons]
    exact (bind_pure _).symm
  rw [hresume, (resume_searches hg).start_eq hg hstart]

theorem fresh_outset (hg : g.WellFormed) (hstart : start ∈ g.actors) (cache : RateCache) :
    (Progress.outset start cache).Fresh (spanningTree g start) := by
  have hids := (spanningTree_tree hg hstart).nodup_reached_ids hg
  rw [reached, List.map_cons, List.map_map] at hids
  exact ⟨hids, (List.nodup_cons.mp hids).2⟩

/-- Entering the actors of a spanning tree one after the other comes to what carrying the counts
along it does. -/
theorem enterAll_spanningTree (hg : g.WellFormed) (hstart : start ∈ g.actors)
    (cache : RateCache) :
    match propagate g [(start.id, .one)] (spanningTree g start) cache with
    | .ok fractions rates =>
      enterAll g (spanningTree g start) (.outset start cache) =
        some (.ok (), ⟨rates, fractions, (spanningTree g start).map (·.channel.id),
          predecessors (spanningTree g start)⟩)
    | .error e rates => ∃ before link after fractions kept,
      spanningTree g start = before ++ link :: after ∧
        propagate g [(start.id, .one)] before cache = .ok fractions kept ∧
        carry g fractions link.near.actor link kept = .error e rates ∧
        enterAll g (spanningTree g start) (.outset start cache) =
          some (.error e, ⟨rates, fractions, before.map (·.channel.id), predecessors before⟩) := by
  have hfresh := fresh_outset hg hstart cache
  cases hrun : propagate g [(start.id, .one)] (spanningTree g start) cache with
  | ok fractions rates => exact enterAll_of_ok hfresh hrun
  | error e rates => exact enterAll_of_error hfresh hrun

/-- The loop `searchOn`, in which an actor counts as visited once it has a fraction, agrees with
`spanningTree` and `propagate`: it has the same counts in the same order, the same channels,
predecessors and rates, or the same failure at the same link. -/
theorem searchOn_propagates (hg : g.WellFormed) (hstart : start ∈ g.actors) (cache : RateCache) :
    match propagate g [(start.id, .one)] (spanningTree g start) cache with
    | .ok fractions rates =>
      g.searchOn [(start, g.allLinks start)] (.outset start cache) =
        some (.ok (), ⟨rates, fractions, (spanningTree g start).map (·.channel.id),
          predecessors (spanningTree g start)⟩)
    | .error e rates => ∃ before link after fractions kept,
      spanningTree g start = before ++ link :: after ∧
        propagate g [(start.id, .one)] before cache = .ok fractions kept ∧
        carry g fractions link.near.actor link kept = .error e rates ∧
        g.searchOn [(start, g.allLinks start)] (.outset start cache) =
          some (.error e, ⟨rates, fractions, before.map (·.channel.id), predecessors before⟩) := by
  rw [(searchOn_searches g).start_eq hg hstart cache]
  exact enterAll_spanningTree hg hstart cache

/-- `propagate` along the spanning tree of a start and the recursion `visit` from that start agree:
they have the same counts in the same order, the same channels and the same rates, or the same
failure at the same link. -/
theorem visit_propagates (hg : g.Reachable) (hstart : start ∈ g.actors) (cache : RateCache) :
    match propagate g [(start.id, .one)] (spanningTree g start) cache with
    | .ok fractions rates =>
      g.visit start (.outset start cache) =
        some (.ok (), ⟨rates, fractions, (spanningTree g start).map (·.channel.id),
          predecessors (spanningTree g start)⟩)
    | .error e rates => ∃ before link after fractions kept,
      spanningTree g start = before ++ link :: after ∧
        propagate g [(start.id, .one)] before cache = .ok fractions kept ∧
        carry g fractions link.near.actor link kept = .error e rates ∧
        g.visit start (.outset start cache) =
          some (.error e, ⟨rates, fractions, before.map (·.channel.id), predecessors before⟩) := by
  rw [visit_start hg.wellFormed hstart cache]
  exact enterAll_spanningTree hg.wellFormed hstart cache

theorem visit_propagates_parallel :
    parallel.Reachable ∧ ∃ b ∈ parallel.actors, b.name = "b" ∧ ∃ fractions rates,
      propagate parallel [(b.id, .one)] (spanningTree parallel b) .empty = .ok fractions rates ∧
      parallel.visit b (.outset b .empty) =
        some (.ok (), ⟨rates, fractions, (spanningTree parallel b).map (·.channel.id),
          predecessors (spanningTree parallel b)⟩) := by
  have hg : parallel.Reachable := (Graph.Reachable.empty none).performAll _
  have hstart : (⟨1, "b", "B", 0, false⟩ : Actor) ∈ parallel.actors := by decide +kernel
  have hvisit := visit_propagates hg hstart .empty
  have hnone : failure? (propagate parallel [(1, .one)]
      (spanningTree parallel ⟨1, "b", "B", 0, false⟩)) .empty = none := by
    decide +kernel
  obtain ⟨fractions, rates, hrun⟩ := failure?_eq_none_iff.mp hnone
  rw [hrun] at hvisit
  exact ⟨hg, _, hstart, rfl, fractions, rates, hrun, hvisit⟩

end Balance

end Dataflow
