import Dataflow.Proofs.Balance.Starts
import Dataflow.Proofs.Monomial.Coefficient

namespace Dataflow

open Text Dataflow.Action

section Writing

variable {g : Graph}

/-- All counts of a table are short enough to be written. -/
def Repetitions.IsShort (table : Repetitions) : Prop :=
  ∀ entry ∈ table.entries, entry.2.IsShort

/-- Both parts of a ratio are short enough to be written. -/
def Ratio.IsShort (r : Ratio) : Prop :=
  r.numerator.IsShort ∧ r.denominator.IsShort

/-- The numbers of a verdict that have to be written are short enough. -/
def Verdict.IsShort : Verdict Repetitions Inconsistency → Prop
  | .success table => table.IsShort
  | .violated evidence => evidence.ratio.IsShort

private theorem Repetitions.exists_text_iff {table : Repetitions}
    (hkeys : table.entries.map Prod.fst = g.actors.map (·.id))
    (hcounts : ∀ entry ∈ table.entries, entry.2.Legible) :
    (∃ text, table.render g = .ok text) ↔ table.IsShort := by
  constructor
  · rintro ⟨text, htext⟩ entry hentry
    exact (hcounts entry hentry).exists_render_iff.mp (exists_render htext hentry)
  · intro hshort
    exact exists_text hkeys fun entry hentry =>
      (hcounts entry hentry).exists_render_iff.mpr (hshort entry hentry)

/-- A table that was found can be written just when its counts are short. -/
theorem Balance.Found.exists_text_iff {table : Repetitions} (hg : g.WellFormed)
    (h : Found g table) : (∃ text, table.render g = .ok text) ↔ table.IsShort := by
  have hsolved := h.solved hg
  refine table.exists_text_iff hsolved.keys_eq fun entry hentry => ?_
  obtain ⟨a, ha, -, hcount⟩ := hsolved.exists_count hg hentry
  exact hcount ▸ h.legible hg ha

theorem Ratio.Legible.exists_render_iff {r : Ratio} (hr : r.Legible) :
    (∃ text, r.render = .ok text) ↔ r.IsShort := by
  rw [Ratio.IsShort, ← hr.1.exists_render_iff, ← hr.2.exists_render_iff]
  constructor
  · rintro ⟨text, h⟩
    obtain ⟨numerator, hnumerator, h⟩ := Except.bind_eq_ok_iff.mp h
    obtain ⟨denominator, hdenominator, -⟩ := Except.bind_eq_ok_iff.mp h
    exact ⟨⟨numerator, hnumerator⟩, denominator, hdenominator⟩
  · rintro ⟨⟨numerator, hnumerator⟩, denominator, hdenominator⟩
    exact ⟨_, Except.bind_eq_ok_iff.mpr
      ⟨numerator, hnumerator, Except.bind_eq_ok_iff.mpr ⟨denominator, hdenominator, rfl⟩⟩⟩

/-- The report has the parts of the ratio, so it can be written when they can. -/
theorem Inconsistency.exists_report {evidence : Inconsistency} {numerator denominator : String}
    (hnumerator : evidence.ratio.numerator.render = .ok numerator)
    (hdenominator : evidence.ratio.denominator.render = .ok denominator) :
    ∃ text, evidence.report g = .ok text := by
  simp only [report, pure_bind, hnumerator, hdenominator]
  split <;> split <;> exact ⟨_, rfl⟩

end Writing

/-- The solver finds a table just when some counts balance the graph. -/
theorem Balance.isSuccess_iff_balances {g : Graph} {start : Option Actor}
    {cache cache' : RateCache} {verdict : Verdict Repetitions Inconsistency} (hg : g.WellFormed)
    (hcache : cache.Agrees g) (hstart : ∀ a ∈ start, a ∈ g.actors)
    (h : solve g start cache = .ok verdict cache') :
    verdict.isSuccess = true ↔ ∃ count, ∀ c ∈ g.channels, Balances g count c := by
  cases verdict with
  | success table =>
    have hfound : Found g table := ⟨start, cache, cache', hstart, hcache, h⟩
    exact iff_of_true rfl ⟨table.count, (hfound.solved hg).balances⟩
  | violated evidence =>
    obtain ⟨walk, hwalk⟩ := solve_violated hg hcache hstart h
    refine iff_of_false Bool.false_ne_true ?_
    rintro ⟨count, hcount⟩
    exact hwalk.not_balances ⟨count, fun c hc => hcount c (hwalk.mem_cycle c hc)⟩

/-- On every channel of a graph for which a table was found, the coefficients balance as numbers. -/
theorem Balance.Found.prod_numbers_eq {g : Graph} {table : Repetitions} {c : Channel}
    {produced consumed : Monomial} (hg : g.WellFormed) (h : Found g table) (hc : c ∈ g.channels)
    (hproduced : g.readRate c.source.port = .ok produced)
    (hconsumed : g.readRate c.target.port = .ok consumed) :
    (table.count c.source.actor).numbers.prod * produced.numbers.prod =
      (table.count c.target.actor).numbers.prod * consumed.numbers.prod := by
  obtain ⟨produced', consumed', hproduced', hconsumed', heq⟩ := (h.solved hg).balances c hc
  obtain rfl : produced = produced' := Except.ok.inj (hproduced.symm.trans hproduced')
  obtain rfl : consumed = consumed' := Except.ok.inj (hconsumed.symm.trans hconsumed')
  have hsource : (table.count c.source.actor).Legible :=
    h.legible hg (hg.joins c hc .output).actor_mem
  have htarget : (table.count c.target.actor).Legible :=
    h.legible hg (hg.joins c hc .input).actor_mem
  have hout := g.legible_of_readRate hproduced
  have hin := g.legible_of_readRate hconsumed
  rw [← Monomial.prod_numbers_mul hsource hout, ← Monomial.prod_numbers_mul htarget hin]
  exact Monomial.prod_numbers_congr (.mul hsource hout) (.mul htarget hin) heq

namespace Workspace

variable {w : Workspace} {start : Option Actor} {first : Actor} {cache cache' : RateCache}
  {verdict : Verdict Repetitions Inconsistency}

/-- `noteBalance` succeeds if and only if the numbers of the verdict are short. -/
theorem noteBalance_isOk_iff {g : Graph} (hg : g.WellFormed) (hcache : cache.Agrees g)
    (hstart : ∀ a ∈ start, a ∈ g.actors)
    (h : Balance.solve g start cache = .ok verdict cache') :
    (∃ w', noteBalance g first verdict w = .ok () w') ↔ verdict.IsShort := by
  cases verdict with
  | success table =>
    have hfound : Balance.Found g table := ⟨start, cache, cache', hstart, hcache, h⟩
    rw [Verdict.IsShort, ← hfound.exists_text_iff hg]
    constructor
    · rintro ⟨w', hnote⟩
      obtain ⟨text, _, htext, -⟩ := bind_eq_ok_iff.mp hnote
      exact ⟨text, (lift_eq_ok_iff.mp htext).1⟩
    · rintro ⟨text, htext⟩
      exact exists_noteBalance htext
  | violated evidence =>
    obtain ⟨walk, hwalk⟩ := Balance.solve_violated hg hcache hstart h
    have hlegible := hwalk.legible
    rw [Verdict.IsShort, ← hlegible.exists_render_iff]
    constructor
    · rintro ⟨w', hnote⟩
      obtain ⟨text, _, htext, -⟩ := bind_eq_ok_iff.mp hnote
      exact ⟨text, (lift_eq_ok_iff.mp htext).1⟩
    · rintro ⟨ratio, hratio⟩
      -- The report has no number that the text of the ratio does not have.
      have hshort := hlegible.exists_render_iff.mp ⟨ratio, hratio⟩
      obtain ⟨numerator, hnumerator⟩ := hlegible.1.exists_render_iff.mpr hshort.1
      obtain ⟨denominator, hdenominator⟩ := hlegible.2.exists_render_iff.mpr hshort.2
      obtain ⟨report, hreport⟩ :=
        Inconsistency.exists_report (g := g) hnumerator hdenominator
      rw [noteBalance, lift_bind_apply, hratio]
      exact ⟨_, bind_eq_ok_iff.mpr ⟨(), _, rfl,
        bind_eq_ok_iff.mpr ⟨report, _, lift_eq_ok_iff.mpr ⟨hreport, rfl⟩, rfl⟩⟩⟩

/-- `Workspace.solve` returns the verdict of the solver if and only if its numbers are short. -/
theorem yields_iff_isShort (hw : w.rates.UsedWith w.graph)
    (hstart : ∀ a ∈ start, a ∈ w.graph.actors)
    (h : Balance.solve w.graph start w.rates = .ok verdict cache) :
    w.Yields start verdict ↔ verdict.IsShort := by
  cases hhead : w.graph.actors.head? with
  | none =>
    have hactors := List.head?_eq_none_iff.mp hhead
    rw [Balance.solve, hactors] at h
    cases h
    exact iff_of_true ⟨w, solve_of_no_actors hactors⟩ (List.forall_mem_nil _)
  | some first =>
    rw [← noteBalance_isOk_iff hw.reachable.wellFormed hw.agrees hstart h]
    exact exists_congr fun _ => solve_eq_ok_iff h hhead

private theorem Overflows.not_yields (h : w.Overflows start) : ¬ w.Yields start verdict := by
  rintro ⟨_, hrun⟩
  obtain ⟨_, _, hfails, -⟩ := h
  cases hfails.symm.trans hrun

/-- `Workspace.solve` fails with a number that is too large if and only if the verdict has one. -/
theorem overflows_iff_not_isShort (hw : w.rates.UsedWith w.graph) (hrates : w.graph.RatesRead)
    (hstart : ∀ a ∈ start, a ∈ w.graph.actors)
    (h : Balance.solve w.graph start w.rates = .ok verdict cache) :
    w.Overflows start ↔ ¬ verdict.IsShort := by
  rw [← yields_iff_isShort hw hstart h]
  obtain ⟨-, hnot⟩ | ⟨-, found, ⟨cache', hsolve⟩, hends⟩ := solve_cases hw hrates hstart
  · exact absurd (Balance.joined_of_solve hw.reachable.wellFormed hw.agrees hstart h) hnot
  · cases h.symm.trans hsolve
    exact ⟨Overflows.not_yields, hends.resolve_left⟩

section Cascade

/-- Three actors in a row, where each makes `n` tokens for every one that the next takes. -/
def cascade (n : Nat) : Graph :=
  Graph.performAll (.empty none)
    [ .addActor "a" "A" 0 false, .addActor "b" "A" 0 false, .addActor "c" "A" 0 false,
      .addPort "A" "in" .input (some "1"), .addPort "A" "out" .output (some n.repr),
      .addChannel ("a", "out") ("b", "in") {}, .addChannel ("b", "out") ("c", "in") {} ]

private theorem cascade_usedWith (n : Nat) : RateCache.empty.UsedWith (cascade n) :=
  (RateCache.UsedWith.start none).performAll _

/-- Three actors in a row, where each makes `rate` tokens for every one that the next takes. -/
structure IsCascade (g : Graph) (rate : Monomial) (a b c : Actor) (ab bc : Channel) : Prop where
  actors_eq : g.actors = [a, b, c]
  channels_eq : g.channels = [ab, bc]
  ends_ab : ab.source.actor = a ∧ ab.target.actor = b
  ends_bc : bc.source.actor = b ∧ bc.target.actor = c
  readRate_source : ∀ channel ∈ g.channels, g.readRate channel.source.port = .ok rate
  unitRate_target : ∀ channel ∈ g.channels, g.UnitRate channel.target.port

private theorem exists_isCascade {n : Nat} (hn : 0 < n) (hwritable : Numeral.isWritable n = true) :
    ∃ rate a b c ab bc, rate.numbers.prod = n ∧ IsCascade (cascade n) rate a b c ab bc := by
  obtain ⟨rate, hrate, -, hprod⟩ := Monomial.exists_parse_repr hn hwritable
  refine ⟨rate, _, _, _, _, _, hprod, rfl, rfl, ⟨rfl, rfl⟩, ⟨rfl, rfl⟩, ?_, ?_⟩
  · exact List.forall_mem_cons.mpr ⟨hrate, List.forall_mem_singleton.mpr hrate⟩
  · exact List.forall_mem_cons.mpr ⟨Graph.unitRate_of_text rfl,
      List.forall_mem_singleton.mpr (Graph.unitRate_of_text rfl)⟩

namespace IsCascade

variable {g : Graph} {rate : Monomial} {a b c : Actor} {ab bc : Channel}

private theorem connected (h : IsCascade g rate a b c ab bc) : g.Connected := by
  have hab : Joined g a b := ⟨[⟨ab, .output⟩], h.ends_ab, by simp [h.channels_eq]⟩
  have hbc : Joined g b c := ⟨[⟨bc, .output⟩], h.ends_bc, by simp [h.channels_eq]⟩
  have hmiddle : ∀ x ∈ g.actors, Joined g b x := by
    rw [h.actors_eq, List.forall_mem_cons, List.forall_mem_cons, List.forall_mem_singleton]
    exact ⟨hab.symm, hab.symm.trans hab, hbc⟩
  exact fun x hx y hy => (hmiddle x hx).symm.trans (hmiddle y hy)

private theorem ratesRead (h : IsCascade g rate a b c ab bc) : g.RatesRead := by
  intro channel hchannel direction
  cases direction with
  | output => exact ⟨rate, h.readRate_source channel hchannel⟩
  | input =>
    obtain ⟨one, hone, -⟩ := h.unitRate_target channel hchannel
    exact ⟨one, hone⟩

/-- The graph is balanced when the actors fire once, `rate` times, and `rate * rate` times. -/
theorem exists_balances (h : IsCascade g rate a b c ab bc) (hg : g.WellFormed) :
    ∃ count, ∀ channel ∈ g.channels, Balance.Balances g count channel := by
  have hnodup : [a, b, c].Nodup := h.actors_eq ▸ List.Nodup.of_map _ hg.nodup_actor_ids
  obtain ⟨⟨hab, hac⟩, hbc⟩ : (a ≠ b ∧ a ≠ c) ∧ b ≠ c := by simpa using hnodup
  let count (x : Actor) : Monomial := if x = a then .one else if x = b then rate else rate * rate
  refine ⟨count, fun channel hchannel => ?_⟩
  obtain ⟨one, hone, hisOne⟩ := h.unitRate_target channel hchannel
  refine ⟨rate, one, h.readRate_source channel hchannel, hone, Monomial.beq_iff.mpr fun key => ?_⟩
  have hzero := Monomial.isOne_iff.mp hisOne key
  rw [h.channels_eq] at hchannel
  obtain rfl | rfl : channel = ab ∨ channel = bc := by simpa using hchannel
  · simp [count, h.ends_ab.1, h.ends_ab.2, hab.symm, hzero]
  · simp [count, h.ends_bc.1, h.ends_bc.2, hab.symm, hac.symm, hbc.symm, hzero]

/-- The coefficient of the last actor's count has that of the rate as a factor twice. -/
theorem le_prod_numbers (h : IsCascade g rate a b c ab bc) (hg : g.WellFormed)
    {table : Repetitions} (hfound : Balance.Found g table) :
    rate.numbers.prod * rate.numbers.prod ≤ (table.count c).numbers.prod := by
  have hstep : ∀ channel ∈ g.channels,
      (table.count channel.source.actor).numbers.prod * rate.numbers.prod =
        (table.count channel.target.actor).numbers.prod := by
    intro channel hchannel
    obtain ⟨one, hone, hisOne⟩ := h.unitRate_target channel hchannel
    have heq := hfound.prod_numbers_eq hg hchannel (h.readRate_source channel hchannel) hone
    rwa [Monomial.prod_numbers_of_isOne hisOne, Nat.mul_one] at heq
  have hab := hstep ab (by simp [h.channels_eq])
  have hbc := hstep bc (by simp [h.channels_eq])
  rw [h.ends_ab.1, h.ends_ab.2] at hab
  rw [h.ends_bc.1, h.ends_bc.2, ← hab, Nat.mul_assoc] at hbc
  have hfirst : a ∈ g.actors := by simp [h.actors_eq]
  have hpos := Monomial.prod_numbers_ne_zero (hfound.legible hg hfirst)
  exact hbc ▸ Nat.le_mul_of_pos_left _ (Nat.pos_of_ne_zero hpos)

end IsCascade

private theorem factorCount_cascade (n : Nat) : (cascade n).factorCount = 4 := by
  have htokens (n : Nat) : (Monomial.tokens n.repr).length = 1 :=
    congrArg List.length
      (Monomial.tokens_intercalate (List.forall_mem_singleton.mpr (Monomial.isToken_repr n)))
  have hlength : (Monomial.tokens n.repr).length + (Monomial.tokens "1").length = 2 := by
    rw [htokens, show "1" = Nat.repr 1 from rfl, htokens]
  have hchannels : ∀ c ∈ (cascade n).channels, (cascade n).channelLength c = 2 :=
    List.forall_mem_cons.mpr ⟨(Graph.channelLength_eq rfl rfl).trans hlength,
      List.forall_mem_singleton.mpr ((Graph.channelLength_eq rfl rfl).trans hlength)⟩
  rw [Graph.factorCount, List.map_congr_left hchannels]
  rfl

/-- Rates that can be written make counts that cannot, so no verdict is returned from any start. -/
theorem overflows_cascade {n : Nat} (hn : 0 < n) (hwritable : Numeral.isWritable n = true)
    (hlarge : Numeral.isWritable (n * n) = false) {first : Actor}
    (hfirst : first ∈ (cascade n).actors) :
    ∃ w', solve (some first) ⟨cascade n, .empty, .empty, []⟩ = .error .numberTooLarge w' := by
  let w : Workspace := ⟨cascade n, .empty, .empty, []⟩
  have hused : w.rates.UsedWith w.graph := cascade_usedWith n
  have hg := hused.reachable.wellFormed
  have hstart : ∀ a ∈ some first, a ∈ w.graph.actors :=
    fun _ ha => Option.mem_some_iff.mp ha ▸ hfirst
  obtain ⟨rate, a, b, c, ab, bc, hprod, hcascade⟩ := exists_isCascade hn hwritable
  obtain ⟨count, hcount⟩ := hcascade.exists_balances hg
  obtain ⟨table, cache, hsolve⟩ :=
    Balance.exists_solve hg hused.agrees hstart hcascade.connected hcount
  have hfound : Balance.Found w.graph table := ⟨_, _, _, hstart, hused.agrees, hsolve⟩
  have hoverflows : w.Overflows (some first) := by
    refine (overflows_iff_not_isShort hused hcascade.ratesRead hstart hsolve).mpr fun hshort => ?_
    -- The solver has the table by now; the count of the last actor is what cannot be told.
    have hlast : c ∈ w.graph.actors := by simp [w, hcascade.actors_eq]
    have hentry := Repetitions.mem_of_get_eq_ok ((hfound.solved hg).get_eq c hlast)
    have hle := hcascade.le_prod_numbers hg hfound
    rw [hprod] at hle
    obtain ⟨hfits, -⟩ := (hfound.legible hg hlast).isShort_iff.mp (hshort _ hentry)
    rw [Numeral.isWritable_of_le hle hfits] at hlarge
    cases hlarge
  obtain ⟨e, w', hfails, rfl | ⟨-, hlimit⟩⟩ := hoverflows
  · exact ⟨w', hfails⟩
  · have hcount : w.graph.factorCount = 4 := factorCount_cascade n
    rw [hcount] at hlimit
    exact absurd hlimit (by decide)

end Cascade

/-- On a connected graph whose rates can be read, `Balance.solve` returns a verdict, which is a
table if and only if some counts balance the graph. `Workspace.solve` returns this verdict if its
numbers are short enough to be written, and otherwise fails with a number that is too large. It has
no other failure. -/
theorem solve_total (hw : w.rates.UsedWith w.graph) (hconnected : w.graph.Connected)
    (hrates : w.graph.RatesRead) (hstart : ∀ a ∈ start, a ∈ w.graph.actors) :
    ∃ verdict cache, Balance.solve w.graph start w.rates = .ok verdict cache ∧
      (verdict.isSuccess = true ↔
        ∃ count, ∀ c ∈ w.graph.channels, Balance.Balances w.graph count c) ∧
      (w.Yields start verdict ↔ verdict.IsShort) ∧
      (w.Overflows start ↔ ¬ verdict.IsShort) := by
  obtain ⟨-, hnot⟩ | ⟨-, verdict, ⟨cache, hsolve⟩, -⟩ := solve_cases hw hrates hstart
  · exact absurd hconnected hnot
  · exact ⟨verdict, cache, hsolve,
      Balance.isSuccess_iff_balances hw.reachable.wellFormed hw.agrees hstart hsolve,
      yields_iff_isShort hw hstart hsolve, overflows_iff_not_isShort hw hrates hstart hsolve⟩

theorem solve_total_cascade :
    let w : Workspace := ⟨cascade 2, .empty, .empty, []⟩
    w.rates.UsedWith w.graph ∧ w.graph.Connected ∧ w.graph.RatesRead ∧
      (∀ a ∈ w.graph.actors[1]?, a ∈ w.graph.actors) ∧
      ∃ verdict cache, Balance.solve w.graph w.graph.actors[1]? w.rates = .ok verdict cache ∧
        (verdict.isSuccess = true ↔
          ∃ count, ∀ c ∈ w.graph.channels, Balance.Balances w.graph count c) ∧
        (w.Yields w.graph.actors[1]? verdict ↔ verdict.IsShort) ∧
        (w.Overflows w.graph.actors[1]? ↔ ¬ verdict.IsShort) := by
  intro w
  have htwo : Numeral.isWritable 2 = true := Numeral.isWritable_iff_length.mpr (by decide)
  obtain ⟨rate, a, b, c, ab, bc, -, hcascade⟩ := exists_isCascade (by decide) htwo
  have hused : w.rates.UsedWith w.graph := cascade_usedWith 2
  have hstart : ∀ a ∈ w.graph.actors[1]?, a ∈ w.graph.actors := fun a ha => List.mem_of_getElem? ha
  exact ⟨hused, hcascade.connected, hcascade.ratesRead, hstart,
    solve_total hused hcascade.connected hcascade.ratesRead hstart⟩

/-- A number with half as many zeros as a number may have digits. -/
def steep : Nat := 10 ^ (Numeral.maxDigits / 2)

theorem steep_pos : 0 < steep :=
  Nat.pow_pos (by decide)

theorem isWritable_steep : Numeral.isWritable steep = true :=
  Numeral.isWritable_iff.mpr (Nat.pow_lt_pow_right (by decide) (by decide))

theorem not_isWritable_steep_mul : Numeral.isWritable (steep * steep) = false := by
  have hhalves : Numeral.maxDigits / 2 + Numeral.maxDigits / 2 = Numeral.maxDigits := by decide
  rw [Bool.eq_false_iff, ne_eq, Numeral.isWritable_iff, steep, ← Nat.pow_add, hhalves]
  exact Nat.lt_irrefl _

/-- In `cascade` at the rate `steep` the count of the last actor has one digit more than can be
written, so `Workspace.solve` fails although the graph is balanced. -/
theorem cascade_unreported :
    RateCache.empty.UsedWith (cascade steep) ∧ (cascade steep).Connected ∧
      (cascade steep).RatesRead ∧ (cascade steep).actors.length = 3 ∧
      ∀ start ∈ (cascade steep).actors,
        (∃ w', solve (some start) ⟨cascade steep, .empty, .empty, []⟩ =
          .error .numberTooLarge w') ∧
          ¬ ∃ verdict, Yields (some start) ⟨cascade steep, .empty, .empty, []⟩ verdict := by
  obtain ⟨rate, a, b, c, ab, bc, -, hcascade⟩ := exists_isCascade steep_pos isWritable_steep
  refine ⟨cascade_usedWith _, hcascade.connected, hcascade.ratesRead, ?_, fun start hstart => ?_⟩
  · rw [hcascade.actors_eq]
    rfl
  · obtain ⟨w', hfails⟩ :=
      overflows_cascade steep_pos isWritable_steep not_isWritable_steep_mul hstart
    exact ⟨⟨w', hfails⟩, not_exists.mpr fun _ => Overflows.not_yields ⟨_, w', hfails, .inl rfl⟩⟩

end Workspace

end Dataflow
