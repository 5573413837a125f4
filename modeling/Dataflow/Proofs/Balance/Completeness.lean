import Dataflow.Proofs.Balance.Coverage
import Dataflow.Proofs.Balance.Legible
import Dataflow.Proofs.Graph.Growth

namespace Dataflow

open Dataflow.Action

namespace Balance

variable {g : Graph} {cache : RateCache} {fractions : Fractions} {start : Actor} {tree : List Link}

/-- A link of a tree begins at an actor that the links before it reach. -/
theorem Tree.near_mem_before (h : Tree g start tree) {before after : List Link} {link : Link}
    (htree : tree = before ++ link :: after) : link.near.actor ∈ reached start before := by
  induction h generalizing after with
  | root _ => simp at htree
  | @grow tree last h _ hnear _ ih =>
    obtain rfl | ⟨rest, final, rfl⟩ := after.eq_nil_or_concat'
    · obtain ⟨rfl, hlast⟩ := List.append_inj' htree rfl
      obtain rfl : last = link := by simpa using hlast
      exact hnear
    · rw [← List.cons_append, ← List.append_assoc] at htree
      exact ih (List.append_inj' htree rfl).1

theorem exists_fraction {a : Actor} (h : a.id ∈ fractions.map Prod.fst) :
    ∃ f, fraction fractions a = .ok f := by
  obtain ⟨entry, hentry, hid⟩ := List.mem_map.mp h
  have hsome : (fractions.lookup a.id).isSome :=
    List.lookup_isSome_iff.mpr ⟨entry, hentry, by simp [hid]⟩
  obtain ⟨f, hf⟩ := Option.isSome_iff_exists.mp hsome
  exact ⟨f, fraction_eq_ok_iff.mpr hf⟩

/-- Counts can be carried over links whose rates can be read, each from an actor that has a count
by then. -/
theorem exists_propagate (fractions : Fractions) (hcache : cache.Agrees g)
    (hrates : ∀ link ∈ tree, ∃ left entered,
      g.readRate link.near.port = .ok left ∧ g.readRate link.far.port = .ok entered)
    (hnear : ∀ before link after, tree = before ++ link :: after →
      link.near.actor.id ∈ fractions.map Prod.fst ++ before.map (·.far.actor.id)) :
    ∃ result cache', propagate g fractions tree cache = .ok result cache' := by
  induction tree generalizing fractions cache with
  | nil => exact ⟨fractions, cache, rfl⟩
  | cons link tree ih =>
    obtain ⟨⟨left, entered, hleft, hentered⟩, hrest⟩ := List.forall_mem_cons.mp hrates
    obtain ⟨cache₁, hleft, hcache₁⟩ := RateCache.exists_rate hcache hleft
    obtain ⟨cache₂, hentered, hcache₂⟩ := RateCache.exists_rate hcache₁ hentered
    obtain ⟨near, hfraction⟩ := exists_fraction (by simpa using hnear [] link tree rfl)
    obtain ⟨result, cache₃, hresult⟩ := ih
      (fractions ++ [(link.far.actor.id, near * .of left entered)]) hcache₂ hrest
      fun before l after htree => by
        have hmem := hnear (link :: before) l after (by rw [htree, List.cons_append])
        simpa using hmem
    refine ⟨result, cache₃, ?_⟩
    rw [propagate]
    refine bind_eq_ok_iff.mpr ⟨left, cache₁, hleft, ?_⟩
    refine bind_eq_ok_iff.mpr ⟨entered, cache₂, hentered, ?_⟩
    exact bind_eq_ok_iff.mpr ⟨near, cache₂, lift_eq_ok_iff.mpr ⟨hfraction, rfl⟩, hresult⟩

private theorem exists_imbalance (hcache : cache.Agrees g) {c : Channel}
    (hc : Conserves g (exponents fractions) c)
    (hsource : c.source.actor.id ∈ fractions.map Prod.fst)
    (htarget : c.target.actor.id ∈ fractions.map Prod.fst) :
    ∃ ratio cache', imbalance g fractions c cache = .ok ratio cache' ∧ ratio.isOne = true := by
  obtain ⟨produced, consumed, hproduced, hconsumed, heq⟩ := hc
  obtain ⟨source, hsource⟩ := exists_fraction hsource
  obtain ⟨target, htarget⟩ := exists_fraction htarget
  obtain ⟨cache₁, hproduced', hcache₁⟩ := RateCache.exists_rate hcache hproduced
  obtain ⟨cache₂, hconsumed', -⟩ := RateCache.exists_rate hcache₁ hconsumed
  have hresult : imbalance g fractions c cache =
      .ok (source * .ofMonomial produced / (target * .ofMonomial consumed)) cache₂ := by
    rw [imbalance]
    refine bind_eq_ok_iff.mpr ⟨source, cache, lift_eq_ok_iff.mpr ⟨hsource, rfl⟩, ?_⟩
    refine bind_eq_ok_iff.mpr ⟨produced, cache₁, hproduced', ?_⟩
    refine bind_eq_ok_iff.mpr ⟨target, cache₁, lift_eq_ok_iff.mpr ⟨htarget, rfl⟩, ?_⟩
    exact bind_eq_ok_iff.mpr ⟨consumed, cache₂, hconsumed', rfl⟩
  obtain ⟨produced', consumed', hproduced', hconsumed', hexponent⟩ := imbalance_eq_ok hcache hresult
  obtain rfl : produced = produced' := Except.ok.inj (hproduced.symm.trans hproduced')
  obtain rfl : consumed = consumed' := Except.ok.inj (hconsumed.symm.trans hconsumed')
  refine ⟨_, cache₂, hresult, Ratio.isOne_iff.mpr fun key => ?_⟩
  rw [hexponent, heq key]
  omega

/-- No channel is found unbalanced when all are balanced. -/
theorem exists_mismatch?_eq_none {channels : List Channel} (hcache : cache.Agrees g)
    (hchannels : ∀ c ∈ channels, Conserves g (exponents fractions) c)
    (hends : ∀ c ∈ channels, c.source.actor.id ∈ fractions.map Prod.fst ∧
      c.target.actor.id ∈ fractions.map Prod.fst) :
    ∃ cache', mismatch? g fractions channels cache = .ok none cache' := by
  induction channels generalizing cache with
  | nil => exact ⟨cache, rfl⟩
  | cons c channels ih =>
    obtain ⟨hc, hrest⟩ := List.forall_mem_cons.mp hchannels
    obtain ⟨⟨hsource, htarget⟩, hrestEnds⟩ := List.forall_mem_cons.mp hends
    obtain ⟨ratio, cache₁, hratio, hone⟩ := exists_imbalance hcache hc hsource htarget
    have hcache₁ := (imbalance_keeps fractions c).of_ok hcache hratio
    obtain ⟨cache₂, hnone⟩ := ih hcache₁ hrest hrestEnds
    refine ⟨cache₂, bind_eq_ok_iff.mpr ⟨ratio, cache₁, hratio, ?_⟩⟩
    rw [if_pos hone]
    exact hnone

private theorem power_denominator_le (key : String) (m : Monomial) :
    m.power key ≤ (fractions.foldl (fun m entry => m.lcm entry.2.denominator) m).power key ∧
      ∀ entry ∈ fractions, entry.2.denominator.power key ≤
        (fractions.foldl (fun m entry => m.lcm entry.2.denominator) m).power key := by
  induction fractions generalizing m with
  | nil => simp
  | cons head rest ih =>
    obtain ⟨hstart, hrest⟩ := ih (m.lcm head.2.denominator)
    rw [Monomial.power_lcm] at hstart
    rw [List.foldl_cons]
    refine ⟨by omega, List.forall_mem_cons.mpr ⟨by omega, hrest⟩⟩

/-- The common denominator makes up for what any count lacks, so all counts can be scaled. -/
theorem exists_wholeCount {a : Actor} (h : a.id ∈ fractions.map Prod.fst) :
    ∃ n, wholeCount fractions (.ofMonomial (commonDenominator fractions)) a = .ok n := by
  obtain ⟨f, hf⟩ := exists_fraction h
  have hmem := Assoc.mem_of_lookup_eq_some (fraction_eq_ok_iff.mp hf)
  have hnonneg : ∀ key, 0 ≤ (f * .ofMonomial (commonDenominator fractions)).exponent key := by
    intro key
    have hle := (power_denominator_le key .one).2 _ hmem
    rw [Ratio.power_denominator] at hle
    rw [Ratio.exponent_mul, Ratio.exponent_ofMonomial, commonDenominator]
    dsimp only at hle
    omega
  obtain ⟨n, hn⟩ := Ratio.exists_collapse hnonneg
  exact ⟨n, Except.bind_eq_ok_iff.mpr ⟨f, hf, hn⟩⟩

theorem exists_scale (h : ∀ a ∈ g.actors, a.id ∈ fractions.map Prod.fst) :
    ∃ table, scale g fractions = .ok table := by
  have hentry : ∀ a ∈ g.actors, ∃ entry, (do
      return (a.id, ← wholeCount fractions (.ofMonomial (commonDenominator fractions)) a) :
        Except Failure (Handle × Monomial)) = .ok entry := by
    intro a ha
    obtain ⟨n, hn⟩ := exists_wholeCount (h a ha)
    exact ⟨(a.id, n), Except.bind_eq_ok_iff.mpr ⟨n, hn, rfl⟩⟩
  obtain ⟨entries, hentries⟩ := Except.exists_mapM hentry
  exact ⟨⟨entries⟩, Except.bind_eq_ok_iff.mpr ⟨entries, hentries, rfl⟩⟩

/-- Counts that balance the tree of a search balance every channel that any counts can balance. -/
theorem Spread.conserves_of_balances (hg : g.WellFormed) (h : Spread g start fractions)
    {count : Actor → Monomial} (hcount : ∀ c ∈ g.channels, Balances g count c) :
    ∀ c ∈ g.channels, Conserves g (exponents fractions) c := by
  intro c hc
  have htree : ∀ link ∈ spanningTree g start,
      Conserves g (fun a key => (count a).power key) link.channel :=
    fun link hlink => balances_iff.mp (hcount _ (h.tree.channel_mem link hlink))
  obtain ⟨produced, consumed, hproduced, hconsumed, heq⟩ := balances_iff.mp (hcount c hc)
  refine ⟨produced, consumed, hproduced, hconsumed, fun key => ?_⟩
  have hsource := h.tree.sub_eq htree h.conserves key _
    (h.mem_reached _ (hg.joins c hc .output).actor_mem)
  have htarget := h.tree.sub_eq htree h.conserves key _
    (h.mem_reached _ (hg.joins c hc .input).actor_mem)
  have heq := heq key
  simp only [Channel.endpoint] at hsource htarget heq
  omega

/-- The tree of a search from an actor that all others are joined to reaches just the actors. -/
theorem reached_perm (hg : g.WellFormed) (hstart : start ∈ g.actors)
    (hjoined : ∀ a ∈ g.actors, Joined g start a) :
    (reached start (spanningTree g start)).Perm g.actors := by
  have htree := spanningTree_tree hg hstart
  have hactors := List.Nodup.of_map _ hg.nodup_actor_ids
  refine (List.perm_ext_iff_of_nodup htree.nodup_reached hactors).mpr fun a => ?_
  exact ⟨fun ha => htree.reached_subset hg ha,
    fun ha => mem_reached_of_joined hg hstart (hjoined a ha)⟩

/-- There is a count for each actor that the tree reaches. -/
theorem Carried.length_eq (h : Carried g [(start.id, .one)] tree fractions) :
    fractions.length = (reached start tree).length := by
  have hkeys := congrArg List.length h.keys_eq
  rw [List.length_map] at hkeys
  rw [hkeys]
  simp [reached]

/-- Each link of a spanning tree leaves an actor that has a count by then. -/
theorem near_mem_counted (hg : g.WellFormed) (hstart : start ∈ g.actors) {before after : List Link}
    {link : Link} (htree : spanningTree g start = before ++ link :: after) :
    link.near.actor.id ∈ [(start.id, Ratio.one)].map Prod.fst ++ before.map (·.far.actor.id) := by
  have hmem := List.mem_map_of_mem (f := (·.id))
    ((spanningTree_tree hg hstart).near_mem_before htree)
  simpa [reached, Function.comp_def] using hmem

/-- The counts relative to the start are found for all actors. -/
theorem exists_spread (hg : g.WellFormed) (hcache : cache.Agrees g) (hstart : start ∈ g.actors)
    (hjoined : ∀ a ∈ g.actors, Joined g start a) {count : Actor → Monomial}
    (hcount : ∀ c ∈ g.channels, Balances g count c) :
    ∃ fractions cache', propagate g [(start.id, .one)] (spanningTree g start) cache =
        .ok fractions cache' ∧ fractions.length = g.actors.length ∧ Spread g start fractions := by
  have hrates : ∀ link ∈ spanningTree g start, ∃ left entered,
      g.readRate link.near.port = .ok left ∧ g.readRate link.far.port = .ok entered := by
    intro link hlink
    have hchannel := (spanningTree_tree hg hstart).channel_mem link hlink
    obtain ⟨left, entered, hleft, hentered, -⟩ := (balances_iff.mp (hcount _ hchannel)).along
    exact ⟨left, entered, hleft, hentered⟩
  obtain ⟨fractions, cache', hpropagate⟩ := exists_propagate [(start.id, .one)] hcache hrates
    fun _ _ _ htree => near_mem_counted hg hstart htree
  have hcarried := propagate_spanningTree hg hcache hstart hpropagate
  have hlength : fractions.length = g.actors.length :=
    hcarried.length_eq.trans (reached_perm hg hstart hjoined).length_eq
  exact ⟨fractions, cache', hpropagate, hlength, hcarried.spread hg hstart hlength⟩

private theorem exists_solveFrom (hg : g.WellFormed) (hcache : cache.Agrees g)
    (hstart : start ∈ g.actors)
    (hjoined : ∀ a ∈ g.actors, Joined g start a) {count : Actor → Monomial}
    (hcount : ∀ c ∈ g.channels, Balances g count c) :
    ∃ table cache', solveFrom g start cache = .ok (.success table) cache' := by
  obtain ⟨fractions, cache₁, hpropagate, hlength, hspread⟩ :=
    exists_spread hg hcache hstart hjoined hcount
  have hcache₁ := (propagate_keeps _ _).of_ok hcache hpropagate
  have hkeys : ∀ a ∈ g.actors, a.id ∈ fractions.map Prod.fst := by
    intro a ha
    rw [hspread.keys_eq]
    exact List.mem_map_of_mem (hspread.mem_reached a ha)
  have hconserves := hspread.conserves_of_balances hg hcount
  have hoff : ∀ c ∈ offTree g (spanningTree g start), c ∈ g.channels :=
    fun c hc => (mem_offTree.mp hc).1
  obtain ⟨cache₂, hnone⟩ := exists_mismatch?_eq_none hcache₁ (fun c hc => hconserves c (hoff c hc))
    fun c hc => ⟨hkeys _ (hg.joins c (hoff c hc) .output).actor_mem,
      hkeys _ (hg.joins c (hoff c hc) .input).actor_mem⟩
  obtain ⟨table, hscale⟩ := exists_scale hkeys
  refine ⟨table, cache₂, bind_eq_ok_iff.mpr ⟨fractions, cache₁, hpropagate, ?_⟩⟩
  rw [if_neg (not_not.mpr hlength)]
  refine bind_eq_ok_iff.mpr ⟨none, cache₂, hnone, ?_⟩
  exact bind_eq_ok_iff.mpr ⟨table, cache₂, lift_eq_ok_iff.mpr ⟨hscale, rfl⟩, rfl⟩

theorem exists_solve {start : Option Actor} (hg : g.WellFormed) (hcache : cache.Agrees g)
    (hstart : ∀ a ∈ start, a ∈ g.actors)
    (hjoined : ∀ a ∈ g.actors, ∀ b ∈ g.actors, Joined g a b) {count : Actor → Monomial}
    (hcount : ∀ c ∈ g.channels, Balances g count c) :
    ∃ table cache', solve g start cache = .ok (.success table) cache' := by
  unfold solve
  cases hhead : g.actors.head? with
  | none => exact ⟨⟨[]⟩, cache, rfl⟩
  | some first =>
    have hmem : start.getD first ∈ g.actors := by
      cases start with
      | none => exact List.mem_of_mem_head? hhead
      | some a => exact hstart a rfl
    exact exists_solveFrom hg hcache hmem (hjoined _ hmem) hcount

section Growing

variable {g' : Graph} {table table' : Repetitions} {count : Actor → Monomial} {c : Channel}

theorem Balances.mono (h : Balances g count c) (hgrows : g.Grows g') : Balances g' count c := by
  obtain ⟨produced, consumed, hproduced, hconsumed, heq⟩ := h
  exact ⟨produced, consumed, hgrows.readRate hproduced, hgrows.readRate hconsumed, heq⟩

/-- Counts that balance a channel in a graph that has grown balanced it before, if its rates could
be read then. -/
theorem Balances.anti {count' : Actor → Monomial} (h : Balances g' count' c) (hgrows : g.Grows g')
    (hold : Balances g count c) : Balances g count' c := by
  obtain ⟨produced, consumed, hproduced, hconsumed, heq⟩ := h
  obtain ⟨produced', consumed', hproduced', hconsumed', -⟩ := hold
  obtain rfl : produced = produced' :=
    Except.ok.inj (hproduced.symm.trans (hgrows.readRate hproduced'))
  obtain rfl : consumed = consumed' :=
    Except.ok.inj (hconsumed.symm.trans (hgrows.readRate hconsumed'))
  exact ⟨produced, consumed, hproduced', hconsumed', heq⟩

private theorem Found.joined (hg : g.WellFormed) (h : Found g table) {a b : Actor}
    (ha : a ∈ g.actors) (hb : b ∈ g.actors) : Joined g a b := by
  obtain ⟨hactors, -⟩ | ⟨first, -, fractions, hspread, -, -⟩ := h.scaled hg
  · rw [hactors] at ha
    cases ha
  · exact hspread.joined hg ha hb

/-- Every entry of a table is the count of an actor. -/
theorem Solved.exists_count (hg : g.WellFormed) (h : Solved g table) {entry : Handle × Monomial}
    (hentry : entry ∈ table.entries) :
    ∃ a ∈ g.actors, a.id = entry.1 ∧ table.count a = entry.2 := by
  have hmem : entry.1 ∈ g.actors.map (·.id) := h.keys_eq ▸ List.mem_map_of_mem hentry
  obtain ⟨a, ha, hid⟩ := List.mem_map.mp hmem
  have hnodup : (table.entries.map Prod.fst).Nodup := h.keys_eq ▸ hg.nodup_actor_ids
  refine ⟨a, ha, hid, ?_⟩
  rw [Repetitions.count, hid, Assoc.lookup_eq_some_of_mem hnodup hentry, Option.getD_some]

/-- A table that still balances a graph that has grown is the one that is found there: each of the
two is a multiple of the other. -/
theorem Found.same (hg : g.WellFormed) (hg' : g'.WellFormed) (hgrows : g.Grows g')
    (hactors : g'.actors = g.actors) (h : Found g table) (h' : Found g' table')
    (hcount : ∀ c ∈ g'.channels, Balances g' table.count c) :
    ∀ a ∈ g.actors, (table'.count a == table.count a) = true := by
  have hcount' : ∀ c ∈ g.channels, Balances g table'.count c := fun c hc =>
    ((h'.solved hg').balances c (hgrows.channels.subset hc)).anti hgrows
      ((h.solved hg).balances c hc)
  obtain ⟨factor, hfactor⟩ := h'.exists_factor hg' hcount
  obtain ⟨factor', hfactor'⟩ := h.exists_factor hg hcount'
  intro a ha
  refine Monomial.beq_iff.mpr fun key => ?_
  have hpower := Monomial.beq_iff.mp (hfactor a (hactors ▸ ha)) key
  have hpower' := Monomial.beq_iff.mp (hfactor' a ha) key
  rw [Monomial.power_mul] at hpower hpower'
  omega

end Growing

end Balance

/-- The actors of a table are found in the graph whose actors it has. -/
theorem Repetitions.exists_items {table : Repetitions} {g : Graph}
    (hkeys : table.entries.map Prod.fst = g.actors.map (·.id)) :
    ∃ items, table.items g = .ok items ∧
      ∀ item ∈ items, ∃ entry ∈ table.entries, entry.2 = item.2 := by
  have hitem : ∀ entry ∈ table.entries, ∃ item, (do return (← g.actorAt entry.1, entry.2) :
      Except Failure (Actor × Monomial)) = .ok item := by
    intro entry hentry
    have hmem : entry.1 ∈ g.actors.map (·.id) := hkeys ▸ List.mem_map_of_mem hentry
    obtain ⟨a, ha, hid⟩ := List.mem_map.mp hmem
    cases hfind : g.actors.find? fun a => (a.id : Int) == entry.1 with
    | none => simpa [hid] using List.find?_eq_none.mp hfind a ha
    | some found =>
      refine ⟨(found, entry.2), Except.bind_eq_ok_iff.mpr ⟨found, ?_, rfl⟩⟩
      rw [Graph.actorAt, hfind]
  obtain ⟨items, hitems⟩ := Except.exists_mapM hitem
  refine ⟨items, hitems, fun item hmem => ?_⟩
  obtain ⟨entry, hentry, hstep⟩ := Except.exists_of_mem_mapM hitems hmem
  obtain ⟨a, -, hstep⟩ := Except.bind_eq_ok_iff.mp hstep
  cases hstep
  exact ⟨entry, hentry, rfl⟩

theorem Repetitions.exists_text {table : Repetitions} {g : Graph}
    (hkeys : table.entries.map Prod.fst = g.actors.map (·.id))
    (hcounts : ∀ entry ∈ table.entries, ∃ text, entry.2.render = .ok text) :
    ∃ text, table.render g = .ok text := by
  obtain ⟨items, hitems, hentries⟩ := exists_items hkeys
  have hrow : ∀ item ∈ items, ∃ row, (do return (item.1.name, ← item.2.render) :
      Except Failure (String × String)) = .ok row := by
    intro item hmem
    obtain ⟨entry, hentry, heq⟩ := hentries item hmem
    obtain ⟨text, htext⟩ := hcounts entry hentry
    exact ⟨_, Except.bind_eq_ok_iff.mpr ⟨text, heq ▸ htext, rfl⟩⟩
  obtain ⟨rows, hrows⟩ := Except.exists_mapM hrow
  have hall : table.rows g = .ok rows := Except.bind_eq_ok_iff.mpr ⟨items, hitems, hrows⟩
  exact ⟨_, Except.bind_eq_ok_iff.mpr ⟨rows, hall, rfl⟩⟩

/-- A table that was written has only counts that can be written. -/
theorem Repetitions.exists_render {table : Repetitions} {g : Graph} {text : String}
    (h : table.render g = .ok text) {entry : Handle × Monomial} (hentry : entry ∈ table.entries) :
    ∃ count, entry.2.render = .ok count := by
  obtain ⟨rows, hrows, -⟩ := Except.bind_eq_ok_iff.mp h
  obtain ⟨items, hitems, hrows⟩ := Except.bind_eq_ok_iff.mp hrows
  obtain ⟨item, hitem, hstep⟩ := Except.exists_mem_of_mapM hitems hentry
  obtain ⟨a, -, hstep⟩ := Except.bind_eq_ok_iff.mp hstep
  cases hstep
  obtain ⟨row, -, hstep⟩ := Except.exists_mem_of_mapM hrows hitem
  obtain ⟨count, hcount, -⟩ := Except.bind_eq_ok_iff.mp hstep
  exact ⟨count, hcount⟩

namespace Workspace

theorem exists_noteBalance {g : Graph} {first : Actor} {w : Workspace} {table : Repetitions}
    {text : String} (htext : table.render g = .ok text) :
    ∃ w', noteBalance g first (.success table) w = .ok () w' := by
  rw [noteBalance, lift_bind_apply, htext]
  exact ⟨_, rfl⟩

/-- `Workspace.solve` returns the verdict of `Balance.solve` if and only if `noteBalance` writes
it. -/
theorem solve_eq_ok_iff {start : Option Actor} {first : Actor} {w w' : Workspace}
    {cache : RateCache} {verdict : Verdict Repetitions Inconsistency}
    (hsolve : Balance.solve w.graph start w.rates = .ok verdict cache)
    (hhead : w.graph.actors.head? = some first) :
    solve start w = .ok verdict w' ↔
      noteBalance w.graph (start.getD first) verdict { w with rates := cache } = .ok () w' := by
  have hrates : onRates (Balance.solve w.graph start) w = .ok verdict { w with rates := cache } :=
    within_eq_ok_iff.mpr ⟨cache, hsolve, rfl⟩
  rw [solve, get_bind_apply]
  constructor
  · intro h
    obtain ⟨found, w₁, hfound, h⟩ := bind_eq_ok_iff.mp h
    cases hrates.symm.trans hfound
    simp only [hhead] at h
    obtain ⟨_, w₂, hnote, h⟩ := bind_eq_ok_iff.mp h
    cases h
    exact hnote
  · intro hnote
    refine bind_eq_ok_iff.mpr ⟨_, _, hrates, ?_⟩
    simp only [hhead]
    exact bind_eq_ok_iff.mpr ⟨(), w', hnote, rfl⟩

/-- `Workspace.solve` returns the empty table for a graph without actors. -/
theorem solve_of_no_actors {start : Option Actor} {w : Workspace}
    (hactors : w.graph.actors = []) : solve start w = .ok (.success ⟨[]⟩) w := by
  have hsolve : Balance.solve w.graph start w.rates = .ok (.success ⟨[]⟩) w.rates := by
    rw [Balance.solve, hactors]
    rfl
  rw [solve, get_bind_apply]
  refine bind_eq_ok_iff.mpr ⟨_, _, within_eq_ok_iff.mpr ⟨_, hsolve, rfl⟩, ?_⟩
  rw [hactors]
  rfl

/-- `Workspace.solve` returns the table of `Balance.solve` if the table can be rendered. -/
theorem solve_of_text {start : Option Actor} {w : Workspace} {table : Repetitions}
    {cache : RateCache} (hsolve : Balance.solve w.graph start w.rates = .ok (.success table) cache)
    {text : String} (htext : table.render w.graph = .ok text) :
    ∃ w', solve start w = .ok (.success table) w' := by
  cases hhead : w.graph.actors.head? with
  | none =>
    have hactors := List.head?_eq_none_iff.mp hhead
    rw [Balance.solve, hactors] at hsolve
    cases hsolve
    exact ⟨w, solve_of_no_actors hactors⟩
  | some first =>
    obtain ⟨w', hnote⟩ := exists_noteBalance htext
    exact ⟨w', (solve_eq_ok_iff hsolve hhead).mpr hnote⟩

/-- The counts of a table that `Workspace.solve` returned can be rendered. -/
theorem solve_written {start : Option Actor} {w w' : Workspace} {table : Repetitions}
    (hsolved : Balance.Solved w.graph table)
    (h : solve start w = .ok (.success table) w') {a : Actor} (ha : a ∈ w.graph.actors) :
    ∃ text, (table.count a).render = .ok text := by
  obtain ⟨cache, hsolve⟩ := solve_eq_ok h
  cases hhead : w.graph.actors.head? with
  | none =>
    rw [List.head?_eq_none_iff.mp hhead] at ha
    cases ha
  | some first =>
    have hnote := (solve_eq_ok_iff hsolve hhead).mp h
    obtain ⟨text, _, hrender, -⟩ := bind_eq_ok_iff.mp hnote
    obtain ⟨hrender, -⟩ := lift_eq_ok_iff.mp hrender
    exact Repetitions.exists_render hrender (Repetitions.mem_of_get_eq_ok (hsolved.get_eq a ha))

/-- When a table that was found before a graph has grown still balances it, `Workspace.solve`
returns the same counts, from every actor. -/
theorem solve_again {start : Option Actor} {w : Workspace} {g : Graph} {table : Repetitions}
    (hg : g.WellFormed) (hw : w.graph.WellFormed) (hrates : w.rates.Agrees w.graph)
    (hgrows : g.Grows w.graph) (hactors : w.graph.actors = g.actors)
    (hfound : Balance.Found g table)
    (hwritten : ∀ a ∈ g.actors, ∃ text, (table.count a).render = .ok text)
    (hcount : ∀ c ∈ w.graph.channels, Balance.Balances w.graph table.count c)
    (hstart : ∀ a ∈ start, a ∈ w.graph.actors) :
    ∃ table' w', solve start w = .ok (.success table') w' ∧
      table'.entries.map Prod.fst = table.entries.map Prod.fst ∧
      ∀ a ∈ g.actors, (table'.count a == table.count a) = true := by
  have hjoined : ∀ a ∈ w.graph.actors, ∀ b ∈ w.graph.actors, Joined w.graph a b := by
    rw [hactors]
    exact fun a ha b hb => (hfound.joined hg ha hb).mono hgrows.channels.subset
  obtain ⟨table', cache, hsolve⟩ := Balance.exists_solve hw hrates hstart hjoined hcount
  have hfound' : Balance.Found w.graph table' := ⟨start, w.rates, cache, hstart, hrates, hsolve⟩
  have hsolved' := hfound'.solved hw
  have hsame := hfound.same hg hw hgrows hactors hfound' hcount
  have hkeys : table'.entries.map Prod.fst = table.entries.map Prod.fst := by
    rw [hsolved'.keys_eq, (hfound.solved hg).keys_eq, hactors]
  have htexts : ∀ entry ∈ table'.entries, ∃ text, entry.2.render = .ok text := by
    intro entry hentry
    obtain ⟨a, ha, -, hcounted⟩ := hsolved'.exists_count hw hentry
    rw [hactors] at ha
    rw [← hcounted]
    exact Monomial.exists_render_congr (hfound.legible hg ha) (hfound'.legible hw (hactors ▸ ha))
      (Monomial.beq_iff.mpr fun key => (Monomial.beq_iff.mp (hsame a ha) key).symm)
      (hwritten a ha)
  obtain ⟨text, htext⟩ := Repetitions.exists_text hsolved'.keys_eq htexts
  obtain ⟨w', hdone⟩ := solve_of_text hsolve htext
  exact ⟨table', w', hdone, hkeys, hsame⟩

end Workspace

end Dataflow
