import Dataflow.Proofs.Balance.Completeness
import Dataflow.Proofs.Balance.Size

namespace Dataflow

open Dataflow.Action

namespace Graph

/-- The rate at an end of some channel cannot be read, and this is why. -/
def RateFails (g : Graph) (e : Failure) : Prop :=
  ∃ c ∈ g.channels, ∃ direction, g.readRate (c.endpoint direction).port = .error e

/-- Every port that is on a channel has a rate that can be read. -/
def RatesRead (g : Graph) : Prop :=
  ∀ c ∈ g.channels, ∀ direction, ∃ m, g.readRate (c.endpoint direction).port = .ok m

variable {g : Graph}

private theorem ratesRead_iff : (g.channels.all fun c =>
    (g.readRate c.source.port).isOk && (g.readRate c.target.port).isOk) = true ↔ g.RatesRead := by
  rw [List.all_eq_true]
  refine forall₂_congr fun c _ => ?_
  rw [Bool.and_eq_true, Except.isOk_iff, Except.isOk_iff]
  constructor
  · rintro ⟨hsource, htarget⟩ direction
    cases direction with
    | output => exact hsource
    | input => exact htarget
  · exact fun h => ⟨h .output, h .input⟩

instance (g : Graph) : Decidable g.RatesRead :=
  decidable_of_iff _ ratesRead_iff

theorem RatesRead.not_rateFails (h : g.RatesRead) (e : Failure) : ¬ g.RateFails e := by
  rintro ⟨c, hc, direction, hfails⟩
  obtain ⟨m, hm⟩ := h c hc direction
  rw [hm] at hfails
  cases hfails

end Graph

namespace RateCache

variable {g : Graph} {p : Port}

/-- Looking for a rate fails only when the port has one that cannot be parsed. -/
theorem rate?_failsOnly : (rate? g p).FailsOnly (Agrees · g) fun e =>
    ∃ text, g.rateText? p = some text ∧ Monomial.parse text = .error e := by
  refine failsOnly_get_bind fun cache _ => ?_
  cases cache.entries.lookup p.id with
  | some m => exact failsOnly_pure _
  | none =>
    cases htext : g.rateText? p with
    | none => exact failsOnly_pure _
    | some text =>
      refine FailsOnly.bind (failsOnly_lift fun e he => ⟨text, rfl, he⟩) (keeps_ofExcept _) ?_
      intro _ m _ _ hparse
      refine failsOnly_modify.bind ?_ fun _ _ _ _ _ => failsOnly_pure _
      exact keeps_modify fun _ hcache => hcache.insert htext (lift_eq_ok_iff.mp hparse).1

/-- Looking up a rate fails as reading it does. -/
theorem rate_failsOnly : (rate g p).FailsOnly (Agrees · g) fun e => g.readRate p = .error e := by
  refine (rate?_failsOnly.mono fun e => ?_).bind rate?_keeps fun cache found _ hcache hfound => ?_
  · rintro ⟨text, htext, hparse⟩
    rw [Graph.readRate, htext]
    exact hparse
  · cases found with
    | some m => exact failsOnly_pure _
    | none =>
      refine failsOnly_throw ?_
      rw [Graph.readRate, (rate?_eq_ok hcache hfound).2 rfl]

end RateCache

namespace Balance

variable {g : Graph} {fractions : Fractions} {start : Actor}

theorem rate_failsOnly {c : Channel} (hc : c ∈ g.channels) (direction : Direction) :
    (RateCache.rate g (c.endpoint direction).port).FailsOnly (RateCache.Agrees · g) g.RateFails :=
  RateCache.rate_failsOnly.mono fun _ he => ⟨c, hc, direction, he⟩

private theorem fraction_failsOnly {I : RateCache → Prop} {P : Failure → Prop} {a : Actor}
    (h : a.id ∈ fractions.map Prod.fst) :
    (liftM (fraction fractions a) : Action RateCache Ratio).FailsOnly I P := by
  refine failsOnly_lift fun e he => ?_
  obtain ⟨f, hf⟩ := exists_fraction h
  rw [hf] at he
  cases he

/-- Carrying counts over links fails only for want of a rate, when each link begins at an actor that
has a count by then. -/
theorem propagate_failsOnly {tree : List Link} (htree : ∀ link ∈ tree, link.channel ∈ g.channels)
    (hnear : ∀ before link after, tree = before ++ link :: after →
      link.near.actor.id ∈ fractions.map Prod.fst ++ before.map (·.far.actor.id)) :
    (propagate g fractions tree).FailsOnly (RateCache.Agrees · g) g.RateFails := by
  induction tree generalizing fractions with
  | nil => exact failsOnly_pure _
  | cons link tree ih =>
    obtain ⟨hlink, hrest⟩ := List.forall_mem_cons.mp htree
    refine (rate_failsOnly hlink link.direction).bind RateCache.rate_keeps fun _ left _ _ _ => ?_
    refine (rate_failsOnly hlink link.direction.opposite).bind RateCache.rate_keeps
      fun _ entered _ _ _ => ?_
    have hcounted : link.near.actor.id ∈ fractions.map Prod.fst := by
      simpa using hnear [] link tree rfl
    refine (fraction_failsOnly hcounted).bind (keeps_ofExcept _) fun _ near _ _ _ => ?_
    refine ih hrest fun before l after heq => ?_
    simpa using hnear (link :: before) l after (by rw [heq, List.cons_append])

private theorem imbalance_failsOnly {c : Channel} (hc : c ∈ g.channels)
    (hends : ∀ direction, (c.endpoint direction).actor.id ∈ fractions.map Prod.fst) :
    (imbalance g fractions c).FailsOnly (RateCache.Agrees · g) g.RateFails := by
  refine (fraction_failsOnly (hends .output)).bind (keeps_ofExcept _) fun _ source _ _ _ => ?_
  refine (rate_failsOnly hc .output).bind RateCache.rate_keeps fun _ produced _ _ _ => ?_
  refine (fraction_failsOnly (hends .input)).bind (keeps_ofExcept _) fun _ target _ _ _ => ?_
  exact (rate_failsOnly hc .input).bind RateCache.rate_keeps fun _ _ _ _ _ => failsOnly_pure _

private theorem mismatch?_failsOnly {channels : List Channel} (hchannels : channels ⊆ g.channels)
    (hends : ∀ c ∈ channels, ∀ direction,
      (c.endpoint direction).actor.id ∈ fractions.map Prod.fst) :
    (mismatch? g fractions channels).FailsOnly (RateCache.Agrees · g) g.RateFails := by
  induction channels with
  | nil => exact failsOnly_pure _
  | cons c channels ih =>
    obtain ⟨hc, hrest⟩ := List.cons_subset.mp hchannels
    obtain ⟨hend, hrestEnds⟩ := List.forall_mem_cons.mp hends
    refine (imbalance_failsOnly hc hend).bind (imbalance_keeps _ _) fun _ ratio _ _ _ => ?_
    split
    · exact ih hrest hrestEnds
    · exact failsOnly_pure _

/-- Why the solver fails: a rate cannot be read, or not all actors are joined to the start. -/
def Stuck (g : Graph) (start : Actor) (e : Failure) : Prop :=
  g.RateFails e ∨ ∃ count, e = .disconnected g.actors.length count ∧
    ¬ ∀ a ∈ g.actors, Joined g start a

private theorem solveFrom_failsOnly (hg : g.WellFormed) (hstart : start ∈ g.actors) :
    (solveFrom g start).FailsOnly (RateCache.Agrees · g) (Stuck g start) := by
  have htree := spanningTree_tree hg hstart
  have hpropagate : (propagate g [(start.id, .one)] (spanningTree g start)).FailsOnly
      (RateCache.Agrees · g) g.RateFails :=
    propagate_failsOnly htree.channel_mem fun _ _ _ heq => near_mem_counted hg hstart heq
  refine (hpropagate.mono fun _ => .inl).bind (propagate_keeps _ _) ?_
  intro _ fractions _ hcache hfractions
  have hcarried := propagate_spanningTree hg hcache hstart hfractions
  split
  · rename_i hlength
    have hnot : ¬ ∀ a ∈ g.actors, Joined g start a := fun hjoined =>
      hlength (hcarried.length_eq.trans (reached_perm hg hstart hjoined).length_eq)
    have hstuck : Stuck g start (.disconnected g.actors.length fractions.length) :=
      .inr ⟨_, rfl, hnot⟩
    exact (failsOnly_throw hstuck).bind (keeps_throw _) fun _ _ _ _ hthrow => by cases hthrow
  · rename_i hlength
    have hspread := hcarried.spread hg hstart (not_not.mp hlength)
    have hcounted : ∀ a ∈ g.actors, a.id ∈ fractions.map Prod.fst := fun a ha =>
      hspread.keys_eq ▸ List.mem_map_of_mem (hspread.mem_reached a ha)
    have hoff : offTree g (spanningTree g start) ⊆ g.channels := fun c hc => (mem_offTree.mp hc).1
    have hmismatch := mismatch?_failsOnly hoff fun c hc direction =>
      hcounted _ (hg.joins c (hoff hc) direction).actor_mem
    refine (hmismatch.mono fun _ => .inl).bind (mismatch?_keeps _ _) fun _ found _ _ _ => ?_
    cases found with
    | some evidence => exact failsOnly_pure _
    | none =>
      obtain ⟨table, htable⟩ := exists_scale hcounted
      refine (failsOnly_lift fun e he => ?_).bind (keeps_ofExcept _) fun _ _ _ _ _ =>
        failsOnly_pure _
      rw [htable] at he
      cases he

private theorem solve_failsOnly {start : Option Actor} (hg : g.WellFormed)
    (hstart : ∀ a ∈ start, a ∈ g.actors) :
    (solve g start).FailsOnly (RateCache.Agrees · g) fun e =>
      ∃ first ∈ g.actors, Stuck g first e := by
  unfold solve
  cases hhead : g.actors.head? with
  | none => exact failsOnly_pure _
  | some first =>
    have hmem : start.getD first ∈ g.actors := by
      cases start with
      | none => exact List.mem_of_mem_head? hhead
      | some a => exact hstart a rfl
    exact (solveFrom_failsOnly hg hmem).mono fun _ he => ⟨_, hmem, he⟩

end Balance

/-- Something that is made of the rates of the graph is too large to be written: a number has too
many digits, or a parameter occurs too often, which takes as many factors in the rates. -/
def Graph.TooLarge (g : Graph) (e : Failure) : Prop :=
  e = .numberTooLarge ∨ e = .repetitionTooLong ∧ Monomial.repetitionLimit ≤ g.factorCount

/-- The divisors are as they come from reading, and no parameter occurs more often than there are
factors in the rates of the graph. -/
structure Monomial.Fits (m : Monomial) (g : Graph) : Prop where
  legible : m.Legible
  power_le : ∀ key, Text.isNumeral key = false → m.power key ≤ g.factorCount

section Writing

private theorem Monomial.Fits.render_eq_error {m : Monomial} {g : Graph} (h : m.Fits g)
    {e : Failure} (he : m.render = .error e) : g.TooLarge e := by
  refine (h.legible.render_eq_error he).imp_right fun ⟨he, hspellable⟩ => ⟨he, ?_⟩
  by_contra hlimit
  refine hspellable fun key hkey => ?_
  have hpower := h.power_le key (mem_parameters_iff.mp hkey).2
  omega

private theorem Balance.Found.fits {g : Graph} {table : Repetitions} {a : Actor} (hg : g.WellFormed)
    (h : Found g table) (ha : a ∈ g.actors) : (table.count a).Fits g where
  legible := h.legible hg ha
  power_le := fun _ hkey => h.power_le hg ha hkey

/-- A table that has the actors of a graph can be written unless a count is too large. -/
theorem Repetitions.render_eq_error {table : Repetitions} {g g' : Graph}
    (hkeys : table.entries.map Prod.fst = g'.actors.map (·.id))
    (hcounts : ∀ entry ∈ table.entries, entry.2.Fits g) {e : Failure}
    (h : table.render g' = .error e) : g.TooLarge e := by
  obtain ⟨items, hitems, hentries⟩ := exists_items hkeys
  obtain hrows | ⟨_, -, h⟩ := Except.bind_eq_error_iff.mp h
  · rw [rows, hitems] at hrows
    obtain ⟨item, hitem, hrow⟩ := Except.exists_of_mapM_eq_error hrows
    obtain ⟨entry, hentry, heq⟩ := hentries item hitem
    obtain htext | ⟨_, -, hrow⟩ := Except.bind_eq_error_iff.mp hrow
    · rw [← heq] at htext
      exact (hcounts entry hentry).render_eq_error htext
    · cases hrow
  · cases h

/-- A table that was found for a graph can be written for every graph with the same actors, unless a
count is too large. -/
theorem Balance.Found.render_eq_error {g g' : Graph} {table : Repetitions} (hg : g.WellFormed)
    (hfound : Found g table) (hactors : g'.actors = g.actors) {e : Failure}
    (h : table.render g' = .error e) : g.TooLarge e := by
  have hsolved := hfound.solved hg
  refine table.render_eq_error (hactors ▸ hsolved.keys_eq) (fun entry hentry => ?_) h
  obtain ⟨a, ha, -, hcount⟩ := hsolved.exists_count hg hentry
  exact hcount ▸ hfound.fits hg ha

/-- A ratio that cannot be written has a part that cannot be written. -/
theorem Ratio.part_of_render_eq_error {r : Ratio} {e : Failure} (h : r.render = .error e) :
    r.numerator.render = .error e ∨ r.denominator.render = .error e := by
  obtain h | ⟨_, -, h⟩ := Except.bind_eq_error_iff.mp h
  · exact .inl h
  · obtain h | ⟨_, -, h⟩ := Except.bind_eq_error_iff.mp h
    · exact .inr h
    · cases h

/-- Both parts have only divisors as they come from reading. -/
def Ratio.Legible (r : Ratio) : Prop :=
  r.numerator.Legible ∧ r.denominator.Legible

namespace Ratio.Legible

variable {a b r : Ratio}

theorem of {m n : Monomial} (hm : m.Legible) (hn : n.Legible) : (Ratio.of m n).Legible :=
  ⟨hm.strike _, hn.strike _⟩

private theorem mul (ha : a.Legible) (hb : b.Legible) : (a * b).Legible :=
  of (ha.1.mul hb.1) (ha.2.mul hb.2)

private theorem congr (ha : a.Legible) (h : (a == b) = true) : b.Legible := by
  obtain ⟨hnumerator, hdenominator⟩ := Bool.and_eq_true_iff.mp h
  exact ⟨ha.1.anti fun key => (Monomial.beq_iff.mp hnumerator key).ge,
    ha.2.anti fun key => (Monomial.beq_iff.mp hdenominator key).ge⟩

theorem render_eq_error (hr : r.Legible) {e : Failure} (h : r.render = .error e) :
    e = .numberTooLarge ∨ e = .repetitionTooLong :=
  (part_of_render_eq_error h).elim (fun h => (hr.1.render_eq_error h).imp_right And.left)
    fun h => (hr.2.render_eq_error h).imp_right And.left

end Ratio.Legible

/-- What a walk gains is made of rates. -/
theorem Balance.gain_legible {g : Graph} {walk : List Link} {r : Ratio}
    (h : gain g walk = .ok r) : r.Legible := by
  induction walk generalizing r with
  | nil =>
    cases h
    exact .of .one .one
  | cons link walk ih =>
    obtain ⟨left, hleft, h⟩ := Except.bind_eq_ok_iff.mp h
    obtain ⟨entered, hentered, h⟩ := Except.bind_eq_ok_iff.mp h
    obtain ⟨rest, hrest, h⟩ := Except.bind_eq_ok_iff.mp h
    cases h
    have hrates := Ratio.Legible.of (g.legible_of_readRate hentered) (g.legible_of_readRate hleft)
    exact hrates.mul (ih hrest)

theorem Balance.Refutes.legible {g : Graph} {evidence : Inconsistency} {walk : List Link}
    (h : Refutes g evidence walk) : evidence.ratio.Legible := by
  obtain ⟨r, hr, hratio⟩ := h.gain_eq
  have hsymm : (r == evidence.ratio) = true :=
    Ratio.beq_iff.mpr fun key => (Ratio.beq_iff.mp hratio key).symm
  exact (gain_legible hr).congr hsymm

/-- A report that cannot be written is of a ratio with a part that cannot be written. -/
theorem Inconsistency.part_of_report_eq_error {evidence : Inconsistency} {g : Graph} {e : Failure}
    (h : evidence.report g = .error e) :
    evidence.ratio.numerator.render = .error e ∨ evidence.ratio.denominator.render = .error e := by
  simp only [report, pure_bind] at h
  split at h
  · split at h
    · cases h
    · obtain h | ⟨_, -, h⟩ := Except.bind_eq_error_iff.mp h
      · exact .inl h
      · cases h
  · obtain h | ⟨_, -, h⟩ := Except.bind_eq_error_iff.mp h
    · exact .inr h
    · split at h
      · cases h
      · obtain h | ⟨_, -, h⟩ := Except.bind_eq_error_iff.mp h
        · exact .inl h
        · cases h

/-- The parts of the ratio of a refutation are made of rates. -/
theorem Balance.Refutes.fits {g : Graph} {evidence : Inconsistency} {walk : List Link}
    (h : Refutes g evidence walk) :
    evidence.ratio.numerator.Fits g ∧ evidence.ratio.denominator.Fits g := by
  refine ⟨⟨h.legible.1, fun key hkey => ?_⟩, ⟨h.legible.2, fun key hkey => ?_⟩⟩
  · have hle := h.natAbs_exponent_le hkey
    rw [Ratio.power_numerator]
    omega
  · have hle := h.natAbs_exponent_le hkey
    rw [Ratio.power_denominator]
    omega

private theorem Balance.Refutes.render_eq_error {g : Graph} {evidence : Inconsistency}
    {walk : List Link}
    (h : Refutes g evidence walk) {e : Failure} (he : evidence.ratio.render = .error e) :
    g.TooLarge e :=
  (Ratio.part_of_render_eq_error he).elim h.fits.1.render_eq_error h.fits.2.render_eq_error

theorem Balance.Refutes.report_eq_error {g g' : Graph} {evidence : Inconsistency}
    {walk : List Link} (h : Refutes g evidence walk) {e : Failure}
    (he : evidence.report g' = .error e) : g.TooLarge e :=
  (Inconsistency.part_of_report_eq_error he).elim h.fits.1.render_eq_error
    h.fits.2.render_eq_error

end Writing

namespace Balance

variable {g : Graph} {cache cache' : RateCache} {start : Option Actor}
  {verdict : Verdict Repetitions Inconsistency}

theorem solve_violated {evidence : Inconsistency} (hg : g.WellFormed) (hcache : cache.Agrees g)
    (hstart : ∀ a ∈ start, a ∈ g.actors)
    (h : solve g start cache = .ok (.violated evidence) cache') :
    ∃ walk, Refutes g evidence walk := by
  obtain ⟨-, hverdict⟩ | ⟨first, -, fractions, hspread, houtcome⟩ :=
    solve_outcome hg hcache hstart h
  · cases hverdict
  · cases houtcome with
    | refuted hmem hoff hratio => exact hspread.exists_refutes hg hmem hoff hratio

/-- A graph for which the solver comes to an end is connected. -/
theorem joined_of_solve (hg : g.WellFormed) (hcache : cache.Agrees g)
    (hstart : ∀ a ∈ start, a ∈ g.actors) (h : solve g start cache = .ok verdict cache') :
    ∀ a ∈ g.actors, ∀ b ∈ g.actors, Joined g a b := by
  intro a ha b hb
  obtain ⟨hactors, -⟩ | ⟨first, -, fractions, hspread, -⟩ := solve_outcome hg hcache hstart h
  · rw [hactors] at ha
    cases ha
  · exact hspread.joined hg ha hb

end Balance

namespace Workspace

/-- What the solver has found can be made known unless a number is too large. -/
theorem noteBalance_failsOnly {g : Graph} {cache cache' : RateCache}
    {start : Option Actor} {first : Actor} {verdict : Verdict Repetitions Inconsistency}
    (hg : g.WellFormed) (hcache : cache.Agrees g) (hstart : ∀ a ∈ start, a ∈ g.actors)
    (h : Balance.solve g start cache = .ok verdict cache') :
    (noteBalance g first verdict).FailsOnly (fun _ => True) g.TooLarge := by
  cases verdict with
  | success table =>
    have hfound : Balance.Found g table := ⟨start, cache, cache', hstart, hcache, h⟩
    exact FailsOnly.bind (failsOnly_lift fun e he => hfound.render_eq_error hg rfl he) (keeps_true _)
      fun _ _ _ _ _ => failsOnly_modify
  | violated evidence =>
    obtain ⟨walk, hwalk⟩ := Balance.solve_violated hg hcache hstart h
    refine FailsOnly.bind (failsOnly_lift fun e he => ?_) (keeps_true _) fun _ _ _ _ _ => ?_
    · exact hwalk.render_eq_error he
    refine failsOnly_modify.bind (keeps_true _) fun _ _ _ _ _ => ?_
    refine FailsOnly.bind (failsOnly_lift fun e he => ?_) (keeps_true _) fun _ _ _ _ _ =>
      failsOnly_modify
    exact hwalk.report_eq_error he

/-- `Workspace.solve` fails as `Balance.solve` does, or because the verdict cannot be written. -/
theorem solve_eq_error {start : Option Actor} {w w' : Workspace} {e : Failure}
    (hg : w.graph.WellFormed) (hcache : w.rates.Agrees w.graph)
    (hstart : ∀ a ∈ start, a ∈ w.graph.actors) (h : solve start w = .error e w') :
    (∃ first ∈ w.graph.actors, Balance.Stuck w.graph first e) ∨
      w.graph.TooLarge e ∧
        ∃ verdict cache, Balance.solve w.graph start w.rates = .ok verdict cache := by
  rw [solve, get_bind_apply] at h
  obtain hsolve | ⟨verdict, w₁, hsolve, h⟩ := bind_eq_error_iff.mp h
  · obtain ⟨_, hsolve⟩ := within_eq_error hsolve
    exact .inl (Balance.solve_failsOnly hg hstart _ _ _ hcache hsolve)
  · obtain ⟨cache, hsolve, -⟩ := within_eq_ok_iff.mp hsolve
    refine .inr ⟨?_, verdict, cache, hsolve⟩
    cases hhead : w.graph.actors.head? with
    | none =>
      simp only [hhead] at h
      cases h
    | some first =>
      simp only [hhead] at h
      obtain h | ⟨_, _, -, h⟩ := bind_eq_error_iff.mp h
      · exact noteBalance_failsOnly hg hcache hstart hsolve _ _ _ trivial h
      · cases h

end Workspace

end Dataflow
