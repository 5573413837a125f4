import Dataflow.Proofs.Balance.Solver
import Dataflow.Proofs.Balance.Splice

namespace Dataflow.Balance

variable {g : Graph} {φ : Actor → String → Int} {tree : List Link} {c : Channel} {fork : Actor}
  {outward back : List Link}

/-- Along the paths of the tree the rates cancel, so what a round trip gains it gains on the channel
off the tree. -/
theorem Fork.gain_roundTrip (h : Fork tree c fork outward back)
    (htree : ∀ link ∈ tree, Conserves g φ link.channel) {produced consumed : Monomial}
    (hproduced : g.readRate c.source.port = .ok produced)
    (hconsumed : g.readRate c.target.port = .ok consumed) :
    ∃ r, gain g (roundTrip c outward back) = .ok r ∧ ∀ key, r.exponent key =
      φ c.source.actor key + produced.power key - (φ c.target.actor key + consumed.power key) := by
  obtain ⟨out, hout, houtExponent⟩ :=
    gain_of_conserves h.leads_outward fun link hlink => htree link (h.outward_subset hlink)
  have hback : ∀ link ∈ (back.map Link.opposite).reverse, Conserves g φ link.channel := by
    intro link hlink
    obtain ⟨l, hl, rfl⟩ := List.mem_map.mp (List.mem_reverse.mp hlink)
    exact htree l (h.back_subset hl)
  obtain ⟨home, hhome, hhomeExponent⟩ := gain_of_conserves h.leads_back.reverse hback
  have hcross : gain g (⟨c, .input⟩ :: (back.map Link.opposite).reverse) =
      .ok (.of produced consumed * home) := gain_cons hconsumed hproduced hhome
  obtain ⟨r, hr, hsum⟩ := gain_append hout hcross
  refine ⟨r, hr, fun key => ?_⟩
  rw [hsum, houtExponent, Ratio.exponent_mul, Ratio.exponent_of, hhomeExponent]
  omega

/-- A cycle of a graph through a channel, walked from the channel's target to its source, and what
is gained on it. -/
structure Refutes (g : Graph) (evidence : Inconsistency) (walk : List Link) : Prop where
  channels_eq : walk.map (·.channel) = evidence.cycle
  mem_channels : ∀ link ∈ walk, link.channel ∈ g.channels
  simpleCycle : SimpleCycle walk
  crosses : ⟨evidence.reference, .input⟩ ∈ walk
  isOne_eq : evidence.ratio.isOne = false
  gain_eq : ∃ r, gain g walk = .ok r ∧ (evidence.ratio == r) = true

theorem Spread.exists_refutes {start : Actor} {fractions : Fractions} {ratio : Ratio}
    (hg : g.WellFormed) (h : Spread g start fractions) (hc : c ∈ g.channels)
    (hoff : c ∉ (spanningTree g start).map (·.channel))
    (hratio : Unbalanced g fractions c ratio) :
    ∃ walk, Refutes g ⟨spliceCycle (spanningTree g start) c, ratio, c⟩ walk := by
  have hsource := h.mem_reached _ (hg.joins c hc .output).actor_mem
  have htarget := h.mem_reached _ (hg.joins c hc .input).actor_mem
  obtain ⟨fork, outward, back, hfork, hsplice⟩ := h.tree.exists_fork hg hsource htarget
  obtain ⟨produced, consumed, hproduced, hconsumed, hexponent⟩ := hratio.exponent_eq
  obtain ⟨r, hr, hgain⟩ := hfork.gain_roundTrip h.conserves hproduced hconsumed
  have hmem : ∀ link ∈ roundTrip c outward back, link.channel ∈ g.channels := by
    intro link hlink
    obtain hlink | hlink := List.mem_append.mp hlink
    · exact h.tree.channel_mem link (hfork.outward_subset hlink)
    · obtain rfl | hlink := List.mem_cons.mp hlink
      · exact hc
      · obtain ⟨l, hl, rfl⟩ := List.mem_map.mp (List.mem_reverse.mp hlink)
        exact h.tree.channel_mem l (hfork.back_subset hl)
  refine ⟨roundTrip c outward back, hsplice.symm, hmem,
    hfork.simpleCycle h.tree.nodup_channels hoff, ?_, hratio.isOne_eq, r, hr, ?_⟩
  · exact List.mem_append_right _ List.mem_cons_self
  · exact Ratio.beq_iff.mpr fun key => (hexponent key).trans (hgain key).symm

theorem solve_exists_refutes {w w' : Workspace} {start : Option Actor} {evidence : Inconsistency}
    (hw : w.rates.UsedWith w.graph) (hstart : ∀ a ∈ start, a ∈ w.graph.actors)
    (h : Workspace.solve start w = .ok (.violated evidence) w') :
    ∃ walk, Refutes w.graph evidence walk := by
  have hg := hw.reachable.wellFormed
  obtain ⟨cache, hsolve⟩ := Workspace.solve_eq_ok h
  obtain ⟨-, hverdict⟩ | ⟨first, -, fractions, hspread, houtcome⟩ :=
    solve_outcome hg hw.agrees hstart hsolve
  · cases hverdict
  · cases houtcome with
    | refuted hmem hoff hratio => exact hspread.exists_refutes hg hmem hoff hratio

namespace Refutes

variable {evidence : Inconsistency} {walk : List Link}

private theorem count_reference (h : Refutes g evidence walk) :
    evidence.cycle.count evidence.reference = 1 := by
  rw [← h.channels_eq]
  exact List.count_eq_one_of_mem h.simpleCycle.nodup_channels (List.mem_map_of_mem h.crosses)

theorem mem_cycle (h : Refutes g evidence walk) : ∀ c ∈ evidence.cycle, c ∈ g.channels := by
  intro c hc
  rw [← h.channels_eq] at hc
  obtain ⟨link, hlink, rfl⟩ := List.mem_map.mp hc
  exact h.mem_channels link hlink

private theorem count_ends (h : Refutes g evidence walk) :
    ∀ a ∈ evidence.cycle.flatMap Channel.ends,
      (evidence.cycle.flatMap Channel.ends).count a = 2 := by
  rw [← h.channels_eq]
  exact fun a ha => h.simpleCycle.count_ends ha

theorem not_balances (h : Refutes g evidence walk) :
    ¬ ∃ count : Actor → Monomial, ∀ c ∈ evidence.cycle, Balances g count c := by
  obtain ⟨a, hclosed⟩ := h.simpleCycle.closed
  obtain ⟨r, hr, hratio⟩ := h.gain_eq
  have hone : r.isOne = false := by
    rw [Bool.eq_false_iff]
    intro hone
    have hzero : evidence.ratio.isOne = true := Ratio.isOne_iff.mpr fun key =>
      (Ratio.beq_iff.mp hratio key).trans (Ratio.isOne_iff.mp hone key)
    rw [h.isOne_eq] at hzero
    cases hzero
  rintro ⟨count, hcount⟩
  refine not_balances_of_gain hclosed hr hone ⟨count, fun link hlink => hcount _ ?_⟩
  rw [← h.channels_eq]
  exact List.mem_map_of_mem hlink

end Refutes

/-- If `Workspace.solve` returns an inconsistency, then its channels are those of a simple
undirected cycle of the graph, which crosses the reference channel once, from the consumer to the
producer. The ratio is the gain of the walk around the cycle and is not one, so no counts balance
the channels of the cycle. -/
theorem solve_refutes {w w' : Workspace} {start : Option Actor} {evidence : Inconsistency}
    (hw : w.rates.UsedWith w.graph) (hstart : ∀ a ∈ start, a ∈ w.graph.actors)
    (h : Workspace.solve start w = .ok (.violated evidence) w') :
    (∀ c ∈ evidence.cycle, c ∈ w.graph.channels) ∧
      evidence.cycle.Nodup ∧
      evidence.cycle.count evidence.reference = 1 ∧
      (∀ a ∈ evidence.cycle.flatMap Channel.ends,
        (evidence.cycle.flatMap Channel.ends).count a = 2) ∧
      (∃ walk r, walk.map (·.channel) = evidence.cycle ∧ SimpleCycle walk ∧
        ⟨evidence.reference, .input⟩ ∈ walk ∧
        gain w.graph walk = .ok r ∧ (evidence.ratio == r) = true) ∧
      evidence.ratio.isOne = false ∧
      ¬ ∃ count : Actor → Monomial, ∀ c ∈ evidence.cycle, Balances w.graph count c := by
  obtain ⟨walk, hwalk⟩ := solve_exists_refutes hw hstart h
  obtain ⟨r, hr, hratio⟩ := hwalk.gain_eq
  have hnodup : evidence.cycle.Nodup := hwalk.channels_eq ▸ hwalk.simpleCycle.nodup_channels
  exact ⟨hwalk.mem_cycle, hnodup, hwalk.count_reference, hwalk.count_ends,
    ⟨walk, r, hwalk.channels_eq, hwalk.simpleCycle, hwalk.crosses, hr, hratio⟩, hwalk.isOne_eq,
    hwalk.not_balances⟩

/-- Two actors that feed each other at rates that do not fit, and a third one before them. -/
def skewed : Graph :=
  Graph.performAll (.empty none)
    [ .addActor "s" "S" 0 false, .addActor "a" "A" 0 false, .addActor "b" "B" 0 false,
      .addPort "S" "out" .output (some "2"), .addPort "A" "in" .input (some "3"),
      .addPort "A" "out" .output (some "x"), .addPort "A" "back" .input (some "5*x"),
      .addPort "B" "in" .input (some "y"), .addPort "B" "out" .output (some "7*y"),
      .addChannel ("s", "out") ("a", "in") {}, .addChannel ("a", "out") ("b", "in") {},
      .addChannel ("b", "out") ("a", "back") {} ]

theorem solve_refutes_skewed :
    ∃ evidence w', Workspace.solve skewed.actors[0]? ⟨skewed, .empty, .empty, []⟩ =
        .ok (.violated evidence) w' ∧
      (∀ c ∈ evidence.cycle, c ∈ skewed.channels) ∧
      evidence.cycle.Nodup ∧
      evidence.cycle.count evidence.reference = 1 ∧
      (∀ a ∈ evidence.cycle.flatMap Channel.ends,
        (evidence.cycle.flatMap Channel.ends).count a = 2) ∧
      (∃ walk r, walk.map (·.channel) = evidence.cycle ∧ SimpleCycle walk ∧
        ⟨evidence.reference, .input⟩ ∈ walk ∧
        gain skewed walk = .ok r ∧ (evidence.ratio == r) = true) ∧
      evidence.ratio.isOne = false ∧
      ¬ ∃ count : Actor → Monomial, ∀ c ∈ evidence.cycle, Balances skewed count c := by
  have hused : RateCache.empty.UsedWith skewed := (RateCache.UsedWith.start none).performAll _
  have hstart : ∀ a ∈ skewed.actors[0]?, a ∈ skewed.actors :=
    fun a ha => List.mem_of_getElem? ha
  have hviolated : (Workspace.verdict? ⟨skewed, .empty, .empty, []⟩ skewed.actors[0]?).any
      (!·.isSuccess) = true := by
    decide +kernel
  obtain ⟨verdict, w', hrun, hverdict⟩ := Workspace.exists_of_verdict? hviolated
  cases verdict with
  | success _ => cases hverdict
  | violated evidence => exact ⟨evidence, w', hrun, solve_refutes hused hstart hrun⟩

end Dataflow.Balance
