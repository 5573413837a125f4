import Dataflow.Proofs.Balance.Cache
import Dataflow.Proofs.Balance.Conservation

namespace Dataflow.Balance

open Dataflow.Action

/-- The exponents of the relative counts. -/
def exponents (fractions : Fractions) (a : Actor) (key : String) : Int :=
  ((fractions.lookup a.id).getD .one).exponent key

theorem fraction_eq_ok_iff {fractions : Fractions} {a : Actor} {f : Ratio} :
    fraction fractions a = .ok f ↔ fractions.lookup a.id = some f := by
  unfold fraction
  cases fractions.lookup a.id <;> simp

theorem exponents_of_lookup {fractions : Fractions} {a : Actor} {f : Ratio}
    (h : fractions.lookup a.id = some f) (key : String) :
    exponents fractions a key = f.exponent key := by
  rw [exponents, h, Option.getD_some]

/-- What became of some counts when they were carried over the links of a tree. -/
structure Carried (g : Graph) (fractions : Fractions) (tree : List Link) (result : Fractions) :
    Prop where
  keys_eq : result.map Prod.fst = fractions.map Prod.fst ++ tree.map (·.far.actor.id)
  lookup_eq : ∀ handle f, fractions.lookup handle = some f → result.lookup handle = some f
  conserves : ∀ link ∈ tree, Conserves g (exponents result) link.channel
  positive : (∀ entry ∈ fractions, entry.2.Positive) → ∀ entry ∈ result, entry.2.Positive

variable {g : Graph} {cache cache' : RateCache} {fractions : Fractions}

theorem readRate_positive {p : Port} {m : Monomial} (h : g.readRate p = .ok m) :
    m.Positive := by
  unfold Graph.readRate at h
  split at h
  · exact Monomial.positive_of_parse h
  · cases h

/-- New counts go behind those that were there, one for each link, whatever the cache holds. -/
theorem propagate_extends {tree : List Link} {result : Fractions}
    (h : propagate g fractions tree cache = .ok result cache') :
    ∃ more, result = fractions ++ more ∧ more.map Prod.fst = tree.map (·.far.actor.id) := by
  induction tree generalizing fractions cache with
  | nil =>
    cases h
    exact ⟨[], by simp⟩
  | cons link tree ih =>
    unfold propagate at h
    obtain ⟨_, _, -, h⟩ := bind_eq_ok_iff.mp h
    obtain ⟨_, _, -, h⟩ := bind_eq_ok_iff.mp h
    obtain ⟨_, _, -, h⟩ := bind_eq_ok_iff.mp h
    obtain ⟨more, rfl, hmore⟩ := ih h
    exact ⟨_ :: more, by rw [List.append_assoc, List.singleton_append],
      by rw [List.map_cons, List.map_cons, hmore]⟩

theorem propagate_carried {tree : List Link} {result : Fractions} (hcache : cache.Agrees g)
    (hnodup : (fractions.map Prod.fst ++ tree.map (·.far.actor.id)).Nodup)
    (h : propagate g fractions tree cache = .ok result cache') :
    Carried g fractions tree result := by
  induction tree generalizing fractions cache with
  | nil =>
    cases h
    exact ⟨by simp, fun _ _ => id, by simp, id⟩
  | cons link tree ih =>
    unfold propagate at h
    obtain ⟨left, _, hleft, h⟩ := bind_eq_ok_iff.mp h
    obtain ⟨entered, _, hentered, h⟩ := bind_eq_ok_iff.mp h
    obtain ⟨near, _, hlift, h⟩ := bind_eq_ok_iff.mp h
    obtain ⟨hnear, rfl⟩ := lift_eq_ok_iff.mp hlift
    obtain ⟨hleft, hcache⟩ := RateCache.rate_eq_ok hcache hleft
    obtain ⟨hentered, hcache⟩ := RateCache.rate_eq_ok hcache hentered
    have hkeys : (fractions ++ [(link.far.actor.id, near * .of left entered)]).map Prod.fst ++
        tree.map (·.far.actor.id) =
          fractions.map Prod.fst ++ (link :: tree).map (·.far.actor.id) := by
      simp
    have hrest := ih hcache (hkeys ▸ hnodup) h
    -- The new count goes to an actor without one, so it hides no count and none hides it.
    have hold : ∀ handle f, fractions.lookup handle = some f → result.lookup handle = some f := by
      intro handle f hlookup
      apply hrest.lookup_eq
      rw [List.lookup_append, hlookup, Option.some_or]
    have hfar : fractions.lookup link.far.actor.id = none := by
      apply Assoc.lookup_eq_none_of_notMem
      exact fun hmem => (List.nodup_append.mp hnodup).2.2 _ hmem _ List.mem_cons_self rfl
    have hnew : result.lookup link.far.actor.id = some (near * .of left entered) := by
      apply hrest.lookup_eq
      simp [List.lookup_append, hfar]
    refine ⟨hrest.keys_eq.trans hkeys, hold, ?_, ?_⟩
    · intro l hl
      obtain rfl | hl := List.mem_cons.mp hl
      · refine Conserves.of_along hleft hentered fun key => ?_
        rw [exponents_of_lookup hnew, exponents_of_lookup (hold _ _ (fraction_eq_ok_iff.mp hnear)),
          Ratio.exponent_mul, Ratio.exponent_of]
        omega
      · exact hrest.conserves l hl
    · intro hpositive
      apply hrest.positive
      intro entry hentry
      obtain hentry | hentry := List.mem_append.mp hentry
      · exact hpositive entry hentry
      · have hrates := Ratio.Positive.of (readRate_positive hleft)
          (readRate_positive hentered)
        have hnear := Assoc.mem_of_lookup_eq_some (fraction_eq_ok_iff.mp hnear)
        rw [List.mem_singleton.mp hentry]
        exact (hpositive _ hnear).mul hrates

theorem imbalance_eq_ok {c : Channel} {ratio : Ratio} (hcache : cache.Agrees g)
    (h : imbalance g fractions c cache = .ok ratio cache') :
    ∃ produced consumed, g.readRate c.source.port = .ok produced ∧
      g.readRate c.target.port = .ok consumed ∧ ∀ key, ratio.exponent key =
        exponents fractions c.source.actor key + produced.power key -
          (exponents fractions c.target.actor key + consumed.power key) := by
  unfold imbalance at h
  obtain ⟨source, _, hlift, h⟩ := bind_eq_ok_iff.mp h
  obtain ⟨hsource, rfl⟩ := lift_eq_ok_iff.mp hlift
  obtain ⟨produced, _, hrate, h⟩ := bind_eq_ok_iff.mp h
  obtain ⟨hproduced, hcache⟩ := RateCache.rate_eq_ok hcache hrate
  obtain ⟨target, _, hlift', h⟩ := bind_eq_ok_iff.mp h
  obtain ⟨htarget, rfl⟩ := lift_eq_ok_iff.mp hlift'
  obtain ⟨consumed, _, hrate', h⟩ := bind_eq_ok_iff.mp h
  obtain ⟨hconsumed, -⟩ := RateCache.rate_eq_ok hcache hrate'
  cases h
  refine ⟨produced, consumed, hproduced, hconsumed, fun key => ?_⟩
  rw [exponents_of_lookup (fraction_eq_ok_iff.mp hsource),
    exponents_of_lookup (fraction_eq_ok_iff.mp htarget), Ratio.exponent_div, Ratio.exponent_mul,
    Ratio.exponent_mul, Ratio.exponent_ofMonomial, Ratio.exponent_ofMonomial]

private theorem conserves_of_isOne {c : Channel} {ratio : Ratio} (hcache : cache.Agrees g)
    (h : imbalance g fractions c cache = .ok ratio cache') (hone : ratio.isOne = true) :
    Conserves g (exponents fractions) c := by
  obtain ⟨produced, consumed, hproduced, hconsumed, hexponent⟩ := imbalance_eq_ok hcache h
  refine ⟨produced, consumed, hproduced, hconsumed, fun key => ?_⟩
  have hzero := Ratio.isOne_iff.mp hone key
  rw [hexponent] at hzero
  omega

theorem conserves_of_mismatch?_eq_none {channels : List Channel} (hcache : cache.Agrees g)
    (h : mismatch? g fractions channels cache = .ok none cache') :
    ∀ c ∈ channels, Conserves g (exponents fractions) c := by
  induction channels generalizing cache with
  | nil => simp
  | cons c channels ih =>
    obtain ⟨ratio, _, hratio, h⟩ := bind_eq_ok_iff.mp h
    split at h
    · rename_i hone
      have hrest := ih ((imbalance_keeps fractions c).of_ok hcache hratio) h
      exact List.forall_mem_cons.mpr ⟨conserves_of_isOne hcache hratio hone, hrest⟩
    · cases h

/-- The channel that is found is the first one that the counts do not balance. -/
theorem mismatch?_eq_some {channels : List Channel} {c : Channel} {ratio : Ratio}
    (hcache : cache.Agrees g)
    (h : mismatch? g fractions channels cache = .ok (some (c, ratio)) cache') :
    (∃ before after, channels = before ++ c :: after ∧
      ∀ d ∈ before, Conserves g (exponents fractions) d) ∧
      ratio.isOne = false ∧ ∃ produced consumed,
        g.readRate c.source.port = .ok produced ∧ g.readRate c.target.port = .ok consumed ∧
        ∀ key, ratio.exponent key =
          exponents fractions c.source.actor key + produced.power key -
            (exponents fractions c.target.actor key + consumed.power key) := by
  induction channels generalizing cache with
  | nil => cases h
  | cons d channels ih =>
    obtain ⟨found, _, hfound, h⟩ := bind_eq_ok_iff.mp h
    split at h
    · rename_i hone
      obtain ⟨⟨before, after, rfl, hbefore⟩, hrest⟩ :=
        ih ((imbalance_keeps fractions d).of_ok hcache hfound) h
      have hd := conserves_of_isOne hcache hfound hone
      exact ⟨⟨d :: before, after, rfl, List.forall_mem_cons.mpr ⟨hd, hbefore⟩⟩, hrest⟩
    · rename_i hone
      cases h
      exact ⟨⟨[], channels, rfl, by simp⟩, by simpa using hone, imbalance_eq_ok hcache hfound⟩

end Dataflow.Balance
