import Dataflow.Proofs.Balance.Scaling
import Dataflow.Workspace

namespace Dataflow

open Dataflow.Action

namespace Balance

/-- Counts relative to the start, for all actors of a graph. -/
structure Spread (g : Graph) (start : Actor) (fractions : Fractions) : Prop where
  tree : Tree g start (spanningTree g start)
  mem_reached : ∀ a ∈ g.actors, a ∈ reached start (spanningTree g start)
  keys_eq : fractions.map Prod.fst = (reached start (spanningTree g start)).map (·.id)
  exponents_start : ∀ key, exponents fractions start key = 0
  conserves : ∀ link ∈ spanningTree g start, Conserves g (exponents fractions) link.channel
  positive : ∀ entry ∈ fractions, entry.2.Positive

/-- A channel off the tree, with what it receives over what it delivers. -/
structure Unbalanced (g : Graph) (fractions : Fractions) (c : Channel) (ratio : Ratio) : Prop where
  isOne_eq : ratio.isOne = false
  exponent_eq : ∃ produced consumed,
    g.readRate c.source.port = .ok produced ∧ g.readRate c.target.port = .ok consumed ∧
    ∀ key, ratio.exponent key =
      exponents fractions c.source.actor key + produced.power key -
        (exponents fractions c.target.actor key + consumed.power key)

/-- The two ways in which the solver can end. -/
inductive Outcome (g : Graph) (start : Actor) (fractions : Fractions) :
    Verdict Repetitions Inconsistency → Prop
  | solved {table : Repetitions}
    (hchannels : ∀ c ∈ g.channels, Conserves g (exponents fractions) c)
    (hscale : scale g fractions = .ok table) : Outcome g start fractions (.success table)
  | refuted {reference : Channel} {ratio : Ratio} (hmem : reference ∈ g.channels)
    (hoff : reference ∉ (spanningTree g start).map (·.channel))
    (hratio : Unbalanced g fractions reference ratio) :
    Outcome g start fractions
      (.violated ⟨spliceCycle (spanningTree g start) reference, ratio, reference⟩)

/-- The two ways in which the solver can end, by the channels that it checks in turn: all of them are
balanced, or all that come before one that is not. -/
inductive Ending (g : Graph) (start : Actor) (fractions : Fractions) :
    Verdict Repetitions Inconsistency → Prop
  | balanced {table : Repetitions}
    (hchecked : ∀ c ∈ offTree g (spanningTree g start), Conserves g (exponents fractions) c)
    (hscale : scale g fractions = .ok table) : Ending g start fractions (.success table)
  | unbalanced {before after : List Channel} {reference : Channel} {ratio : Ratio}
    (hchecked : offTree g (spanningTree g start) = before ++ reference :: after)
    (hbefore : ∀ c ∈ before, Conserves g (exponents fractions) c)
    (hratio : Unbalanced g fractions reference ratio) :
    Ending g start fractions
      (.violated ⟨spliceCycle (spanningTree g start) reference, ratio, reference⟩)

variable {g : Graph} {cache cache' : RateCache} {start : Actor} {fractions : Fractions}
  {verdict : Verdict Repetitions Inconsistency}

theorem mem_offTree {tree : List Link} {c : Channel} :
    c ∈ offTree g tree ↔ c ∈ g.channels ∧ c.id ∉ tree.map (·.channel.id) := by
  simp [offTree, List.mem_filter]

theorem Carried.spread (hg : g.WellFormed) (hstart : start ∈ g.actors)
    (h : Carried g [(start.id, .one)] (spanningTree g start) fractions)
    (hlength : fractions.length = g.actors.length) : Spread g start fractions := by
  have htree := spanningTree_tree hg hstart
  have hkeys : fractions.map Prod.fst = (reached start (spanningTree g start)).map (·.id) := by
    rw [h.keys_eq]
    simp [reached, Function.comp_def]
  have hreached : (reached start (spanningTree g start)).length = g.actors.length := by
    have hcount := congrArg List.length hkeys
    rw [List.length_map, List.length_map] at hcount
    exact hcount.symm.trans hlength
  refine ⟨htree, fun a ha => htree.mem_reached_of_length hg hreached ha, hkeys, fun key => ?_,
    h.conserves, h.positive ?_⟩
  · rw [exponents_of_lookup (h.lookup_eq start.id .one (by simp)), Ratio.exponent_one]
  · intro entry hentry
    rw [List.mem_singleton.mp hentry]
    exact .one

/-- The counts that the solver carries over a spanning tree. -/
theorem propagate_spanningTree (hg : g.WellFormed) (hcache : cache.Agrees g)
    (hstart : start ∈ g.actors)
    (h : propagate g [(start.id, .one)] (spanningTree g start) cache = .ok fractions cache') :
    Carried g [(start.id, .one)] (spanningTree g start) fractions := by
  refine propagate_carried hcache ?_ h
  simpa [reached, Function.comp_def] using (spanningTree_tree hg hstart).nodup_reached_ids hg

/-- A channel of the tree is balanced because it carried a count, any other was checked. -/
theorem Ending.outcome (hg : g.WellFormed) (hspread : Spread g start fractions)
    (h : Ending g start fractions verdict) : Outcome g start fractions verdict := by
  cases h with
  | balanced hchecked hscale =>
    refine .solved (fun c hc => ?_) hscale
    by_cases hon : c.id ∈ (spanningTree g start).map (·.channel.id)
    · obtain ⟨link, hlink, hid⟩ := List.mem_map.mp hon
      rw [← hg.channel_eq_of_id (hspread.tree.channel_mem link hlink) hc hid]
      exact hspread.conserves link hlink
    · exact hchecked c (mem_offTree.mpr ⟨hc, hon⟩)
  | @unbalanced before after reference ratio hchecked _ hratio =>
    have hmem : reference ∈ offTree g (spanningTree g start) := by simp [hchecked]
    obtain ⟨hchannel, hoff⟩ := mem_offTree.mp hmem
    refine .refuted hchannel (fun hin => hoff ?_) hratio
    obtain ⟨link, hlink, rfl⟩ := List.mem_map.mp hin
    exact List.mem_map_of_mem hlink

private theorem solveFrom_ending (hg : g.WellFormed) (hcache : cache.Agrees g)
    (hstart : start ∈ g.actors) (h : solveFrom g start cache = .ok verdict cache') :
    ∃ fractions, Spread g start fractions ∧ Ending g start fractions verdict := by
  obtain ⟨fractions, _, hpropagate, h⟩ := bind_eq_ok_iff.mp h
  have hcarried := propagate_spanningTree hg hcache hstart hpropagate
  have hcache := (propagate_keeps _ _).of_ok hcache hpropagate
  split at h
  · obtain ⟨_, _, hthrow, -⟩ := bind_eq_ok_iff.mp h
    cases hthrow
  · rename_i hlength
    refine ⟨fractions, hcarried.spread hg hstart (not_not.mp hlength), ?_⟩
    obtain ⟨found, _, hfound, h⟩ := bind_eq_ok_iff.mp h
    cases found with
    | some evidence =>
      obtain ⟨reference, ratio⟩ := evidence
      cases h
      obtain ⟨⟨before, after, hchecked, hbefore⟩, hone, hrates⟩ := mismatch?_eq_some hcache hfound
      exact .unbalanced hchecked hbefore ⟨hone, hrates⟩
    | none =>
      obtain ⟨table, _, hlift, h⟩ := bind_eq_ok_iff.mp h
      obtain ⟨hscale, -⟩ := lift_eq_ok_iff.mp hlift
      cases h
      exact .balanced (conserves_of_mismatch?_eq_none hcache hfound) hscale

/-- The solver starts at an actor of the graph, unless there is none. -/
theorem solve_ending {start : Option Actor} (hg : g.WellFormed) (hcache : cache.Agrees g)
    (hstart : ∀ a ∈ start, a ∈ g.actors) (h : solve g start cache = .ok verdict cache') :
    (g.actors = [] ∧ verdict = .success ⟨[]⟩) ∨
      ∃ first, g.actors.head? = some first ∧ start.getD first ∈ g.actors ∧ ∃ fractions,
        Spread g (start.getD first) fractions ∧
          Ending g (start.getD first) fractions verdict := by
  unfold solve at h
  cases hhead : g.actors.head? with
  | none =>
    simp only [hhead] at h
    cases h
    exact .inl ⟨List.head?_eq_none_iff.mp hhead, rfl⟩
  | some first =>
    simp only [hhead] at h
    have hmem : start.getD first ∈ g.actors := by
      cases start with
      | none => exact List.mem_of_mem_head? hhead
      | some a => exact hstart a rfl
    exact .inr ⟨first, rfl, hmem, solveFrom_ending hg hcache hmem h⟩

theorem solve_outcome {start : Option Actor} (hg : g.WellFormed) (hcache : cache.Agrees g)
    (hstart : ∀ a ∈ start, a ∈ g.actors) (h : solve g start cache = .ok verdict cache') :
    (g.actors = [] ∧ verdict = .success ⟨[]⟩) ∨
      ∃ first ∈ g.actors, ∃ fractions,
        Spread g first fractions ∧ Outcome g first fractions verdict := by
  obtain hnone | ⟨first, -, hmem, fractions, hspread, hending⟩ := solve_ending hg hcache hstart h
  · exact .inl hnone
  · exact .inr ⟨_, hmem, fractions, hspread, hending.outcome hg hspread⟩

end Balance

/-- A verdict that `Workspace.solve` returns is that of `Balance.solve`. -/
theorem Workspace.solve_eq_ok {start : Option Actor} {w w' : Workspace}
    {verdict : Verdict Repetitions Inconsistency} (h : Workspace.solve start w = .ok verdict w') :
    ∃ cache, Balance.solve w.graph start w.rates = .ok verdict cache := by
  obtain ⟨_, _, hget, h⟩ := bind_eq_ok_iff.mp h
  cases hget
  obtain ⟨found, _, hfound, h⟩ := bind_eq_ok_iff.mp h
  obtain ⟨cache, hsolve, -⟩ := within_eq_ok_iff.mp hfound
  have hverdict : found = verdict := by
    cases hhead : w.graph.actors.head? with
    | none =>
      simp only [hhead] at h
      cases h
      rfl
    | some first =>
      simp only [hhead] at h
      obtain ⟨_, _, -, h⟩ := bind_eq_ok_iff.mp h
      cases h
      rfl
  exact ⟨cache, hverdict ▸ hsolve⟩

/-- The verdict of `Workspace.solve`, if it returns. -/
def Workspace.verdict? (w : Workspace) (start : Option Actor) :
    Option (Verdict Repetitions Inconsistency) :=
  match Workspace.solve start w with
  | .ok verdict _ => some verdict
  | .error _ _ => none

theorem Workspace.exists_of_verdict? {start : Option Actor} {w : Workspace}
    {p : Verdict Repetitions Inconsistency → Bool} (h : (w.verdict? start).any p = true) :
    ∃ verdict w', Workspace.solve start w = .ok verdict w' ∧ p verdict = true := by
  unfold verdict? at h
  split at h
  · rename_i verdict w' hrun
    exact ⟨verdict, w', hrun, h⟩
  · cases h

end Dataflow
