import Dataflow.Proofs.Balance.Solver
import Dataflow.Proofs.Monomial.Value

namespace Dataflow.Balance

/-- A table of counts that balance a graph. -/
structure Solved (g : Graph) (table : Repetitions) : Prop where
  keys_eq : table.entries.map Prod.fst = g.actors.map (·.id)
  get_eq : ∀ a ∈ g.actors, table.get a = .ok (table.count a)
  positive : ∀ a ∈ g.actors, (table.count a).Positive
  balances : ∀ c ∈ g.channels, Balances g table.count c

variable {g : Graph} {start : Actor} {fractions : Fractions} {table : Repetitions}

theorem power_count_of_scale (hg : g.WellFormed) (hscale : scale g fractions = .ok table)
    {a : Actor} (ha : a ∈ g.actors) (key : String) :
    ((table.count a).power key : Int) =
      exponents fractions a key + (commonDenominator fractions).power key := by
  obtain ⟨-, hcounts⟩ := scale_eq_ok hg hscale
  exact (wholeCount_eq_ok (hcounts a ha).2).1 key

/-- Multiplying all counts by one factor leaves the channels balanced. -/
theorem Spread.solved (hg : g.WellFormed) (h : Spread g start fractions)
    (hchannels : ∀ c ∈ g.channels, Conserves g (exponents fractions) c)
    (hscale : scale g fractions = .ok table) : Solved g table := by
  obtain ⟨hkeys, hcounts⟩ := scale_eq_ok hg hscale
  refine ⟨hkeys, fun a ha => (hcounts a ha).1, fun a ha => ?_, fun c hc => ?_⟩
  · exact (wholeCount_eq_ok (hcounts a ha).2).2 h.positive (commonDenominator_positive h.positive)
  · obtain ⟨produced, consumed, hproduced, hconsumed, heq⟩ := hchannels c hc
    refine balances_iff.mpr ⟨produced, consumed, hproduced, hconsumed, fun key => ?_⟩
    have hsource := power_count_of_scale hg hscale (hg.joins c hc .output).actor_mem key
    have htarget := power_count_of_scale hg hscale (hg.joins c hc .input).actor_mem key
    have heq := heq key
    simp only [Channel.endpoint] at hsource htarget ⊢
    omega

/-- A graph without actors has no channels either. -/
theorem solved_of_no_actors (hg : g.WellFormed) (hactors : g.actors = []) :
    Solved g ⟨[]⟩ := by
  refine ⟨by simp [hactors], by simp [hactors], by simp [hactors], fun c hc => ?_⟩
  have hmem := (hg.joins c hc .output).actor_mem
  simp [hactors] at hmem

/-- A table was found by solving the balance equations from an actor of the graph. -/
def Found (g : Graph) (table : Repetitions) : Prop :=
  ∃ start cache cache', (∀ a ∈ start, a ∈ g.actors) ∧ RateCache.Agrees cache g ∧
    solve g start cache = .ok (.success table) cache'

/-- A table was scaled from counts relative to some start, unless there is no actor. -/
theorem Found.scaled (hg : g.WellFormed) (h : Found g table) :
    (g.actors = [] ∧ table = ⟨[]⟩) ∨ ∃ first ∈ g.actors, ∃ fractions, Spread g first fractions ∧
      (∀ c ∈ g.channels, Conserves g (exponents fractions) c) ∧ scale g fractions = .ok table := by
  obtain ⟨start, cache, cache', hstart, hcache, hsolve⟩ := h
  obtain ⟨hactors, hverdict⟩ | ⟨first, hfirst, fractions, hspread, houtcome⟩ :=
    solve_outcome hg hcache hstart hsolve
  · cases hverdict
    exact .inl ⟨hactors, rfl⟩
  · cases houtcome with
    | solved hchannels hscale => exact .inr ⟨first, hfirst, fractions, hspread, hchannels, hscale⟩

theorem Found.solved (hg : g.WellFormed) (h : Found g table) : Solved g table := by
  obtain ⟨hactors, rfl⟩ | ⟨first, -, fractions, hspread, hchannels, hscale⟩ := h.scaled hg
  · exact solved_of_no_actors hg hactors
  · exact hspread.solved hg hchannels hscale

theorem solve_solved {w w' : Workspace} {start : Option Actor} (hw : w.rates.UsedWith w.graph)
    (hstart : ∀ a ∈ start, a ∈ w.graph.actors)
    (h : Workspace.solve start w = .ok (.success table) w') : Solved w.graph table := by
  obtain ⟨cache, hsolve⟩ := Workspace.solve_eq_ok h
  have hfound : Found w.graph table := ⟨start, w.rates, cache, hstart, hw.agrees, hsolve⟩
  exact hfound.solved hw.reachable.wellFormed

/-- The numbers on both sides of a balance equation are positive and the same, whatever positive
values the parameters have. -/
theorem Solved.value_eq (hg : g.WellFormed) (h : Solved g table) {c : Channel} (hc : c ∈ g.channels)
    {produced consumed : Monomial} (hproduced : g.readRate c.source.port = .ok produced)
    (heq : (table.count c.source.actor * produced == table.count c.target.actor * consumed) = true)
    {v : String → Nat} (hv : ∀ parameter, 0 < v parameter) :
    (table.count c.source.actor).value v * produced.value v =
        (table.count c.target.actor).value v * consumed.value v ∧
      0 < (table.count c.source.actor).value v * produced.value v := by
  have hvalue := Monomial.value_congr (v := v) heq
  rw [Monomial.value_mul, Monomial.value_mul] at hvalue
  have hcount := h.positive _ (hg.joins c hc .output).actor_mem
  exact ⟨hvalue, Nat.mul_pos (Monomial.value_pos hcount hv)
    (Monomial.value_pos (readRate_positive hproduced) hv)⟩

/-- A table that `Workspace.solve` returns, from any start in the graph and with any cache of rates
that was used with it, has one count for each actor and no others. On every channel, self-loops and
parallel channels included, the count of the source times its rate is the count of the target times
its rate, as monomials and for all positive values of the parameters. -/
theorem solve_balances {w w' : Workspace} {start : Option Actor} {table : Repetitions}
    (hw : w.rates.UsedWith w.graph) (hstart : ∀ a ∈ start, a ∈ w.graph.actors)
    (h : Workspace.solve start w = .ok (.success table) w') :
    table.entries.map Prod.fst = w.graph.actors.map (·.id) ∧
      (w.graph.actors.map (·.id)).Nodup ∧
      ∀ c ∈ w.graph.channels, ∃ sourceCount targetCount produced consumed,
        table.get c.source.actor = .ok sourceCount ∧ table.get c.target.actor = .ok targetCount ∧
        w.graph.readRate c.source.port = .ok produced ∧
        w.graph.readRate c.target.port = .ok consumed ∧
        (sourceCount * produced == targetCount * consumed) = true ∧
        ∀ v : String → Nat, (∀ parameter, 0 < v parameter) →
          sourceCount.value v * produced.value v = targetCount.value v * consumed.value v ∧
            0 < sourceCount.value v * produced.value v := by
  have hg := hw.reachable.wellFormed
  have hsolved := solve_solved hw hstart h
  refine ⟨hsolved.keys_eq, hg.nodup_actor_ids, fun c hc => ?_⟩
  obtain ⟨produced, consumed, hproduced, hconsumed, heq⟩ := hsolved.balances c hc
  exact ⟨_, _, produced, consumed, hsolved.get_eq _ (hg.joins c hc .output).actor_mem,
    hsolved.get_eq _ (hg.joins c hc .input).actor_mem, hproduced, hconsumed, heq,
    fun v hv => hsolved.value_eq hg hc hproduced heq hv⟩

/-- Two actors joined by two channels, one of them also to itself. -/
def parallel : Graph :=
  Graph.performAll (.empty none)
    [ .addActor "a" "A" 0 false, .addActor "b" "B" 0 false, .addPort "A" "out" .output (some "2*x"),
      .addPort "A" "more" .output (some "x*4"), .addPort "B" "in" .input (some "3"),
      .addPort "B" "six" .input (some "6"), .addPort "B" "out" .output (some "y"),
      .addPort "B" "back" .input (some "y"), .addChannel ("a", "out") ("b", "in") {},
      .addChannel ("b", "out") ("b", "back") {}, .addChannel ("a", "more") ("b", "six") {} ]

theorem solve_balances_parallel :
    ∃ table w', Workspace.solve none ⟨parallel, .empty, .empty, []⟩ = .ok (.success table) w' ∧
      parallel.channels.length = 3 ∧
      table.entries.map Prod.fst = parallel.actors.map (·.id) ∧
      (parallel.actors.map (·.id)).Nodup ∧
      ∀ c ∈ parallel.channels, ∃ sourceCount targetCount produced consumed,
        table.get c.source.actor = .ok sourceCount ∧ table.get c.target.actor = .ok targetCount ∧
        parallel.readRate c.source.port = .ok produced ∧
        parallel.readRate c.target.port = .ok consumed ∧
        (sourceCount * produced == targetCount * consumed) = true ∧
        ∀ v : String → Nat, (∀ parameter, 0 < v parameter) →
          sourceCount.value v * produced.value v = targetCount.value v * consumed.value v ∧
            0 < sourceCount.value v * produced.value v := by
  have hused : RateCache.empty.UsedWith parallel := (RateCache.UsedWith.start none).performAll _
  have hsuccess : (Workspace.verdict? ⟨parallel, .empty, .empty, []⟩ none).any (·.isSuccess) =
      true := by
    decide +kernel
  obtain ⟨verdict, w', hrun, hverdict⟩ := Workspace.exists_of_verdict? hsuccess
  cases verdict with
  | violated _ => cases hverdict
  | success table => exact ⟨table, w', hrun, by decide +kernel, solve_balances hused (by simp) hrun⟩

end Dataflow.Balance
