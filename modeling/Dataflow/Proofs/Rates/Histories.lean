import Dataflow.Proofs.Balance.Cache
import Dataflow.Proofs.Except
import Dataflow.Proofs.Protocol.Histories

namespace Dataflow

open Dataflow.Action

/-- What the rate of a port reads as, if the port has one. -/
def Graph.readRate? (g : Graph) (p : Port) : Except Failure (Option Monomial) :=
  match g.rateText? p with
  | none => .ok none
  | some text => some <$> Monomial.parse text

/-- The rate of a port depends on its handle only. -/
theorem Graph.rateText?_congr {g : Graph} {p q : Port} (h : p.id = q.id) :
    g.rateText? p = g.rateText? q := by
  rw [rateText?, rateText?, h]

namespace RateCache

variable {cache cache' : RateCache} {g g' : Graph} {p : Port} {ports : List Port} {e : Failure}

/-- Every entry is for a port of the graph and is what the rate of the port reads as. No port has two
entries. -/
structure Current (cache : RateCache) (g : Graph) : Prop where
  nodup_handles : (cache.entries.map Prod.fst).Nodup
  exists_port : ∀ entry ∈ cache.entries, ∃ p ∈ g.ports, p.id = entry.1 ∧
    ∃ text, g.rateText? p = some text ∧ Monomial.parse text = .ok entry.2

namespace Current

private theorem empty (g : Graph) : RateCache.empty.Current g :=
  ⟨List.nodup_nil, fun _ h => nomatch h⟩

/-- The cache need not know what happens to the graph. -/
theorem changes (h : cache.Current g) (hchanges : Graph.Changes g g') : cache.Current g' := by
  refine ⟨h.nodup_handles, fun entry hentry => ?_⟩
  obtain ⟨p, hp, hid, text, hrate, hparse⟩ := h.exists_port entry hentry
  exact ⟨p, hchanges.mem_ports hp, hid, text, hchanges.rateText?_eq hrate, hparse⟩

private theorem readRate?_eq (h : cache.Current g) {m : Monomial}
    (hlookup : cache.entries.lookup p.id = some m) : g.readRate? p = .ok (some m) := by
  obtain ⟨q, -, hid, text, hrate, hparse⟩ :=
    h.exists_port (p.id, m) (Assoc.mem_of_lookup_eq_some hlookup)
  rw [Graph.rateText?_congr hid] at hrate
  rw [Graph.readRate?, hrate]
  exact Except.map_eq_ok_iff.mpr ⟨m, hparse, rfl⟩

/-- A rate that was read may be kept. -/
theorem insert (h : cache.Current g) (hg : g.WellFormed)
    (hlookup : cache.entries.lookup p.id = none) {text : String} (hrate : g.rateText? p = some text)
    {m : Monomial} (hparse : Monomial.parse text = .ok m) :
    (⟨cache.entries ++ [(p.id, m)]⟩ : RateCache).Current g := by
  refine ⟨?_, fun entry hentry => ?_⟩
  · have hnew : p.id ∉ cache.entries.map Prod.fst := by
      intro hmem
      obtain ⟨entry, hentry, hid⟩ := List.mem_map.mp hmem
      exact bne_iff_ne.mp (List.lookup_eq_none_iff.mp hlookup entry hentry) hid.symm
    rw [List.map_append, List.nodup_append]
    refine ⟨h.nodup_handles, List.nodup_singleton _, ?_⟩
    rintro handle hmem _ hlast rfl
    obtain rfl := List.mem_singleton.mp hlast
    exact hnew hmem
  · obtain hold | hlast := List.mem_append.mp hentry
    · exact h.exists_port entry hold
    · obtain rfl := List.mem_singleton.mp hlast
      obtain ⟨q, hq, hid⟩ :=
        List.mem_map.mp (hg.rates_at_ports _ (Assoc.mem_of_lookup_eq_some hrate))
      refine ⟨q, hq, hid, text, ?_, hparse⟩
      rw [Graph.rateText?_congr hid]
      exact hrate

end Current

/-- Whether a port has a rate that the cache does not hold. -/
def lacks (cache : RateCache) (g : Graph) (p : Port) : Bool :=
  (g.rateText? p).isSome && (cache.entries.lookup p.id).isNone

/-- A cache that holds the rates of some ports in addition to what another cache holds. -/
structure Reads (g : Graph) (ports : List Port) (cache cache' : RateCache) : Prop where
  current : cache'.Current g
  exists_added : ∃ added, cache'.entries = cache.entries ++ added ∧
    added.map Prod.fst = (ports.filter (cache.lacks g)).map (·.id)

namespace Reads

private theorem nil (h : cache.Current g) : Reads g [] cache cache :=
  ⟨h, [], (List.append_nil _).symm, rfl⟩

private theorem cons {next : RateCache} (hports : ((p :: ports).map (·.id)).Nodup)
    (hfirst : Reads g [p] cache cache') (hrest : Reads g ports cache' next) :
    Reads g (p :: ports) cache next := by
  obtain ⟨added, hadded, hhandles⟩ := hfirst.exists_added
  obtain ⟨more, hmore, hhandles'⟩ := hrest.exists_added
  refine ⟨hrest.current, added ++ more, by rw [hmore, hadded, List.append_assoc], ?_⟩
  -- What was added for the first port is no entry for another.
  have hsame : ∀ q ∈ ports, cache'.lacks g q = cache.lacks g q := by
    intro q hq
    have hnone : added.lookup q.id = none := by
      apply Assoc.lookup_eq_none_of_notMem
      rw [hhandles]
      intro hmem
      obtain ⟨r, hr, hid⟩ := List.mem_map.mp hmem
      obtain rfl := List.mem_singleton.mp (List.mem_of_mem_filter hr)
      exact (List.nodup_cons.mp hports).1 (List.mem_map.mpr ⟨q, hq, hid.symm⟩)
    rw [lacks, lacks, hadded, List.lookup_append, hnone, Option.or_none]
  rw [List.map_append, hhandles, hhandles', List.filter_congr hsame, ← List.map_append,
    ← List.filter_append, List.singleton_append]

end Reads

/-- Looking a rate up comes to what reading it comes to. -/
theorem rate?_cases (hcache : cache.Current g) (hg : g.WellFormed) (p : Port) :
    (∃ found cache', g.readRate? p = .ok found ∧ rate? g p cache = .ok found cache' ∧
        Reads g [p] cache cache') ∨
      ∃ e, g.readRate? p = .error e ∧ rate? g p cache = .error e cache := by
  rw [rate?, get_bind_apply]
  cases hlookup : cache.entries.lookup p.id with
  | some m =>
    exact .inl ⟨some m, cache, hcache.readRate?_eq hlookup, rfl, hcache, [],
      by simp, by simp [lacks, hlookup]⟩
  | none =>
    cases htext : g.rateText? p with
    | none =>
      exact .inl ⟨none, cache, by simp [Graph.readRate?, htext], rfl, hcache, [],
        by simp, by simp [lacks, htext]⟩
    | some text =>
      dsimp only
      rw [lift_bind_apply]
      cases hparse : Monomial.parse text with
      | error e => exact .inr ⟨e, by simp [Graph.readRate?, htext, hparse], rfl⟩
      | ok m =>
        exact .inl ⟨some m, _, by simp [Graph.readRate?, htext, hparse], rfl,
          hcache.insert hg hlookup htext hparse, _, rfl, by simp [lacks, htext, hlookup]⟩

/-- Parse the rates of some ports. -/
def parse (g : Graph) (ports : List Port) : Action RateCache Unit :=
  ports.forM fun p => do
    let _ ← rate? g p

private theorem parseAll_eq (g : Graph) : parseAll g = parse g g.ports :=
  rfl

/-- Reading the rates of some ports goes on until one of them cannot be read. -/
theorem parse_cases (hcache : cache.Current g) (hg : g.WellFormed)
    (hports : (ports.map (·.id)).Nodup) :
    ((∀ p ∈ ports, ∃ found, g.readRate? p = .ok found) ∧
        ∃ cache', parse g ports cache = .ok () cache' ∧
          Reads g ports cache cache') ∨
      ∃ before p later e, ports = before ++ p :: later ∧
        (∀ q ∈ before, ∃ found, g.readRate? q = .ok found) ∧ g.readRate? p = .error e ∧
        ∃ cache', parse g ports cache = .error e cache' ∧
          Reads g before cache cache' := by
  induction ports generalizing cache with
  | nil => exact .inl ⟨fun _ h => (nomatch h), cache, rfl, .nil hcache⟩
  | cons p ports ih =>
    obtain ⟨found, cache', hread, hstep, hreads⟩ | ⟨e, hread, hstep⟩ := rate?_cases hcache hg p
    · have hfirst : (do let _ ← rate? g p : Action RateCache Unit) cache = .ok () cache' :=
        bind_of_ok hstep
      obtain ⟨hall, next, hrest, hmore⟩ |
          ⟨before, q, later, e, rfl, hbefore, hq, next, hrest, hmore⟩ :=
        ih hreads.current (List.nodup_cons.mp hports).2
      · exact .inl ⟨List.forall_mem_cons.mpr ⟨⟨found, hread⟩, hall⟩, next,
          (bind_of_ok hfirst).trans hrest, .cons hports hreads hmore⟩
      · have hbefore' : ((p :: before).map (·.id)).Nodup :=
          hports.sublist ((List.sublist_append_left (p :: before) (q :: later)).map _)
        exact .inr ⟨p :: before, q, later, e, rfl,
          List.forall_mem_cons.mpr ⟨⟨found, hread⟩, hbefore⟩, hq, next,
          (bind_of_ok hfirst).trans hrest, .cons hbefore' hreads hmore⟩
    · have hfirst : (do let _ ← rate? g p : Action RateCache Unit) cache = .error e cache :=
        bind_of_error hstep
      exact .inr ⟨[], p, ports, e, rfl, fun _ h => (nomatch h), hread, cache,
        bind_of_error hfirst, .nil hcache⟩

/-- Something that happens to a graph or to the cache of its rates. -/
inductive Event where
  | onGraph (event : Graph.Event)
  | lookUp (p : Port)
  | require (p : Port)
  | parseAll
  | clear

/-- What an event leaves of a graph and its cache, whether it succeeds or is refused. -/
def Event.after (s : Graph × RateCache) : Event → Graph × RateCache
  | onGraph event => (event.perform.after s.1, s.2)
  | lookUp p => (s.1, (rate? s.1 p).after s.2)
  | require p => (s.1, (rate s.1 p).after s.2)
  | parseAll => (s.1, (RateCache.parseAll s.1).after s.2)
  | clear => (s.1, .empty)

/-- What a history leaves of a graph and its cache. -/
def replay (s : Graph × RateCache) (events : List Event) : Graph × RateCache :=
  events.foldl Event.after s

private theorem rate?_current (hg : g.WellFormed) (p : Port) : (rate? g p).Keeps (Current · g) := by
  intro cache hcache
  obtain ⟨found, cache', -, hstep, hreads⟩ | ⟨e, -, hstep⟩ := rate?_cases hcache hg p
  · rw [after_of_ok hstep]
    exact hreads.current
  · rwa [after_of_error hstep]

private theorem Event.after_current {s : Graph × RateCache} (event : Event)
    (h : s.1.WellFormed ∧ s.2.Current s.1) :
    (event.after s).1.WellFormed ∧ (event.after s).2.Current (event.after s).1 := by
  obtain ⟨hg, hcache⟩ := h
  cases event with
  | onGraph event =>
    have hchanges := event.changes s.1
    exact ⟨hchanges.wellFormed hg, hcache.changes hchanges⟩
  | lookUp p => exact ⟨hg, rate?_current hg p s.2 hcache⟩
  | require p =>
    have hrate : (rate s.1 p).Keeps (Current · s.1) := by
      refine (rate?_current hg p).bind fun found => ?_
      cases found with
      | some m => exact keeps_pure m
      | none => exact keeps_throw _
    exact ⟨hg, hrate s.2 hcache⟩
  | parseAll =>
    have hparse : (RateCache.parseAll s.1).Keeps (Current · s.1) :=
      keeps_forM fun p _ => (rate?_current hg p).bind fun _ => keeps_pure _
    exact ⟨hg, hparse s.2 hcache⟩
  | clear => exact ⟨hg, .empty s.1⟩

private theorem replay_wellFormed {s : Graph × RateCache} (events : List Event)
    (h : s.1.WellFormed ∧ s.2.Current s.1) :
    (replay s events).1.WellFormed ∧ (replay s events).2.Current (replay s events).1 := by
  induction events generalizing s with
  | nil => exact h
  | cons event events ih => exact ih (event.after_current h)

/-- After any history of the graph and the cache, every entry of the cache is the rate as it is
parsed now. So `rate?` and `rate` return what parsing the rate returns, and `parseAll` stops at the
first rate that cannot be parsed, with those before it in the cache. -/
theorem replay_current {name : Option String} {events : List Event} {g : Graph} {cache : RateCache}
    (h : replay (.empty name, .empty) events = (g, cache)) :
    cache.Current g ∧
    (∀ p, match g.readRate? p with
      | .ok found => ∃ cache', rate? g p cache = .ok found cache' ∧ Reads g [p] cache cache'
      | .error e => rate? g p cache = .error e cache) ∧
    (∀ p, match g.readRate? p with
      | .ok (some m) => ∃ cache', rate g p cache = .ok m cache' ∧ Reads g [p] cache cache'
      | .ok none => ∃ cache', rate g p cache = .error (.rateMissing p.text) cache' ∧
          Reads g [p] cache cache'
      | .error e => rate g p cache = .error e cache) ∧
    ((∀ p ∈ g.ports, ∃ found, g.readRate? p = .ok found) ∧
        (∃ cache', parseAll g cache = .ok () cache' ∧ Reads g g.ports cache cache') ∨
      ∃ before p later e, g.ports = before ++ p :: later ∧
        (∀ q ∈ before, ∃ found, g.readRate? q = .ok found) ∧ g.readRate? p = .error e ∧
        ∃ cache', parseAll g cache = .error e cache' ∧ Reads g before cache cache') := by
  obtain ⟨hg, hcache⟩ : g.WellFormed ∧ cache.Current g := by
    have hreplay := replay_wellFormed (s := (.empty name, .empty)) events
      ⟨.empty name, .empty _⟩
    rwa [h] at hreplay
  refine ⟨hcache, fun p => ?_, fun p => ?_,
    parseAll_eq g ▸ parse_cases hcache hg hg.nodup_port_ids⟩
  · obtain ⟨found, cache', hread, hstep, hreads⟩ | ⟨e, hread, hstep⟩ := rate?_cases hcache hg p
    · rw [hread]
      exact ⟨cache', hstep, hreads⟩
    · rwa [hread]
  · obtain ⟨found, cache', hread, hstep, hreads⟩ | ⟨e, hread, hstep⟩ := rate?_cases hcache hg p
    · rw [hread]
      cases found with
      | some m => exact ⟨cache', bind_of_ok hstep, hreads⟩
      | none => exact ⟨cache', bind_of_ok hstep, hreads⟩
    · rw [hread]
      exact bind_of_error hstep

/-- A port gets its rate after the rates were parsed, and then one is added that cannot be read. -/
def belated : List Event :=
  [ .onGraph (.operation (.addPort "A" "in" .input (some "2"))),
    .onGraph (.operation (.addPort "A" "control" .input none)),
    .parseAll,
    .onGraph (.operation (.setRate "A" "control" "p")),
    .onGraph (.operation (.addPort "A" "out" .output (some "0"))),
    .parseAll ]

theorem replay_current_belated :
    ∃ g cache, replay (.empty none, .empty) belated = (g, cache) ∧
      cache.Current g ∧ cache.entries.map Prod.fst = [0, 1] ∧
      ∃ e, rate? g ⟨2, "A", "out", .output⟩ cache = .error e cache := by
  have hkept : (replay (.empty none, .empty) belated).2.entries.map Prod.fst = [0, 1] := by
    decide +kernel
  have hread : ((replay (.empty none, .empty) belated).1.readRate?
      ⟨2, "A", "out", .output⟩).isOk = false := by
    decide +kernel
  generalize hreplay : replay (.empty none, .empty) belated = s at hkept hread
  obtain ⟨g, cache⟩ := s
  obtain ⟨hcurrent, hlookUp, -, -⟩ := replay_current hreplay
  have hfails := hlookUp ⟨2, "A", "out", .output⟩
  cases hresult : g.readRate? ⟨2, "A", "out", .output⟩ with
  | ok found => simp [hresult, Except.isOk, Except.toBool] at hread
  | error e =>
    rw [hresult] at hfails
    exact ⟨g, cache, rfl, hcurrent, hkept, e, hfails⟩

end RateCache

end Dataflow
