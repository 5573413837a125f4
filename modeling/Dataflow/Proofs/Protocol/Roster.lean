import Dataflow.Proofs.Protocol.Insertion
import Dataflow.Proofs.Protocol.Settlement

namespace Dataflow

open Dataflow.Action

/-- Period actors of different parameters have different types. -/
theorem periodType_injective : Function.Injective periodType := fun _ _ h =>
  (String.append_right_inj "<").mp ((String.append_left_inj ">").mp h)

/-- Ports that feed period actors of different parameters have different names. -/
theorem parameter_eq_of_output {p q : String} (h : s!"_{p}_out" = s!"_{q}_out") : p = q :=
  (String.append_right_inj "_").mp ((String.append_left_inj "_out").mp h)

/-- Modifiers, each with the channels over which its period actors are fed. -/
abbrev Roster := List (Modifier × List Channel)

namespace Roster

/-- The channels, in the order in which they were added. -/
def channels (r : Roster) : List Channel :=
  r.flatMap Prod.snd

/-- The period actors, in the order in which they were added. -/
def sources (r : Roster) : List Actor :=
  r.channels.map (·.target.actor)

variable {r : Roster} {m : Modifier} {cs : List Channel} {c : Channel}

private theorem channels_append (r r' : Roster) : (r ++ r').channels = r.channels ++ r'.channels :=
  List.flatMap_append

private theorem channels_add :
    (r ++ [(m, cs ++ [c])]).channels = (r ++ [(m, cs)]).channels ++ [c] := by
  simp [channels]

private theorem sources_add :
    (r ++ [(m, cs ++ [c])]).sources = (r ++ [(m, cs)]).sources ++ [c.target.actor] := by
  rw [sources, channels_add, List.map_append]
  rfl

private theorem mem_channels {row : Modifier × List Channel} (hrow : row ∈ r) (hc : c ∈ row.2) :
    c ∈ r.channels :=
  List.mem_flatMap.mpr ⟨row, hrow, hc⟩

end Roster

namespace Workspace

/-- A channel that feeds a period actor of a modifier, with its rates and ports. -/
structure Enrolled (g : Graph) (m : Modifier) (c : Channel) : Prop where
  auto_eq : c.auto = true
  feeder_type : c.source.actor.type = m.type
  output_name : c.source.port.name = s!"_{m.parameter}_out"
  output_rate : g.rateText? c.source.port = some "1"
  source_type : c.target.actor.type = periodType m.parameter
  source_auto : c.target.actor.auto = true
  input_name : c.target.port.name = "in"
  input_rate : g.rateText? c.target.port = some m.period

private theorem Enrolled.mono {g g' : Graph} {m : Modifier} {c : Channel} (h : Enrolled g m c)
    (hgrows : g.Grows g') : Enrolled g' m c :=
  { h with
    output_rate := hgrows.rateText? h.output_rate
    input_rate := hgrows.rateText? h.input_rate }

/-- The ports for the period actors of a modifier are there with their names and rates. -/
structure Equips (m : Modifier) (output input : Port) (feeders : List Actor) (g : Graph) : Prop
    extends Furnishes m output input feeders g where
  output_name : output.name = s!"_{m.parameter}_out"
  output_rate : g.rateText? output = some "1"
  input_rate : g.rateText? input = some m.period

private theorem Equips.mono {m : Modifier} {output input : Port} {feeders : List Actor}
    {g g' : Graph} (h : Equips m output input feeders g) (hgrows : g.Grows g') :
    Equips m output input feeders g' :=
  ⟨h.toFurnishes.mono hgrows, h.output_name, hgrows.rateText? h.output_rate,
    hgrows.rateText? h.input_rate⟩

/-- A roster of what was added so far. -/
structure Listed (origin : Graph) (r : Roster) (w : Workspace) : Prop where
  inserted : Inserted origin r.sources r.channels w
  enrolled : ∀ row ∈ r, ∀ c ∈ row.2, Enrolled w.graph row.1 c

section Insertion

variable {origin : Graph} {r : Roster} {w w' : Workspace} {m : Modifier} {cs : List Channel}
  {output input : Port} {feeders : List Actor}

private theorem Listed.addPort {type name : String} {direction : Direction} {rate : Option String}
    {p : Port} {g : Graph} (hw : Listed origin r w)
    (h : Graph.addPort type name direction rate w.graph = .ok p g) :
    Listed origin r { w with graph := g } := by
  have hgrows := (Graph.addPort_grown.of_ok ⟨hw.inserted.grown.wellFormed, .refl _⟩ h).2
  exact ⟨{ hw.inserted with grown := hw.inserted.grown.addPort h },
    fun row hrow c hc => (hw.enrolled row hrow c hc).mono hgrows⟩

/-- A modifier whose turn it is. -/
theorem Listed.turn (hw : Listed origin r w) (m : Modifier) : Listed origin (r ++ [(m, [])]) w := by
  have hsame : Roster.channels (r ++ [(m, [])]) = r.channels := by simp [Roster.channels]
  have hsame' : Roster.sources (r ++ [(m, [])]) = r.sources := by
    rw [Roster.sources, hsame]
    rfl
  refine ⟨by rw [hsame, hsame']; exact hw.inserted, ?_⟩
  exact List.forall_mem_append.mpr ⟨hw.enrolled, by simp⟩

private theorem equips_of_addPort {g g₁ g₂ : Graph} (hg : g.WellFormed)
    (houtput : Graph.addPort m.type s!"_{m.parameter}_out" .output (some "1") g = .ok output g₁)
    (hinput : Graph.addPort (periodType m.parameter) "in" .input (some m.period) g₁ =
      .ok input g₂) :
    Equips m output input (g₂.instances m.type) g₂ := by
  have hgrown₁ := Graph.addPort_grown.of_ok ⟨hg, .refl _⟩ houtput
  have hgrown₂ := Graph.addPort_grown.of_ok ⟨hgrown₁.1, .refl _⟩ hinput
  refine ⟨furnishes_of_addPort houtput hinput, ?_, ?_, ?_⟩
  · rw [(Graph.addPort_eq_ok houtput).2.1]
  · exact hgrown₂.2.rateText? (Graph.rateText?_of_addPort hg houtput)
  · exact Graph.rateText?_of_addPort hgrown₁.1 hinput

/-- One more channel for the last modifier. -/
theorem insertPeriodActor_listed (hm : m ∈ origin.modifiers)
    (hw : Listed origin (r ++ [(m, cs)]) w) (hports : Equips m output input feeders w.graph)
    {feeder source : Actor} (hfeeder : feeder ∈ feeders) {name : String}
    (h : insertPeriodActor s!"_{m.parameter}_out" (periodType m.parameter) name feeder w =
      .ok source w') :
    ∃ c, Listed origin (r ++ [(m, cs ++ [c])]) w' ∧ c.source.actor = feeder ∧
      c.target.actor = source ∧ Equips m output input feeders w'.graph ∧
      w'.protocol.sources = w.protocol.sources := by
  rw [← hports.output_name] at h
  obtain ⟨e, hrefused⟩ | ⟨source', c, g₁, g₂, hactor, hchannel, hc, hc', hadded⟩ :=
    insertPeriodActor_cases hw.inserted.grown.wellFormed hports.toFurnishes hfeeder name
  · rw [hrefused] at h
    cases h
  rw [hadded] at h
  cases h
  have hgrown₁ := Graph.addActor_grown.of_ok ⟨hw.inserted.grown.wellFormed, .refl _⟩ hactor
  have hgrown₂ := Graph.addChannel_grown.of_ok hgrown₁ hchannel
  have hports' := hports.mono hgrown₂.2
  obtain ⟨hsource, -⟩ := Graph.addActor_eq_ok hactor
  obtain ⟨-, -, hauto, -⟩ := Graph.addChannel_eq_ok hchannel
  have hfeederEq : c.source.actor = feeder := by rw [hc]
  have hsourceEq : c.target.actor = source := by rw [hc']
  refine ⟨c, ⟨?_, ?_⟩, hfeederEq, hsourceEq, hports', rfl⟩
  · rw [Roster.channels_add, Roster.sources_add, hsourceEq]
    exact hw.inserted.insert hm hactor hchannel hfeederEq hsourceEq
  · intro row hrow d hd
    obtain hrow | hrow := List.mem_append.mp hrow
    · exact (hw.enrolled row (List.mem_append_left _ hrow) d hd).mono hgrown₂.2
    obtain rfl := List.mem_singleton.mp hrow
    obtain hd | hd := List.mem_append.mp hd
    · exact (hw.enrolled (m, cs) (List.mem_append_right _ List.mem_cons_self) d hd).mono hgrown₂.2
    obtain rfl := List.mem_singleton.mp hd
    exact {
      auto_eq := hauto
      feeder_type := by rw [hfeederEq, (hports.feeders_mem feeder hfeeder).2]
      output_name := by rw [hc, hports.output_name]
      output_rate := by
        rw [hc]
        exact hports'.output_rate
      source_type := by rw [hsourceEq, hsource]
      source_auto := by rw [hsourceEq, hsource]
      input_name := by rw [hc', hports.input_eq.2.1]
      input_rate := by
        rw [hc']
        exact hports'.input_rate }

/-- One more modifier, with a channel from each actor of its type. -/
theorem insertPeriodActorsOf_listed (hm : m ∈ origin.modifiers) (hw : Listed origin r w)
    (h : insertPeriodActorsOf m w = .ok () w') :
    ∃ cs, Listed origin (r ++ [(m, cs)]) w' ∧
      cs.map (·.source.actor) = w.graph.instances m.type ∧
      w'.protocol.sources =
        Assoc.insert m.parameter (cs.map (·.target.actor)) w.protocol.sources := by
  obtain ⟨output, input, g₁, g₂, sources, w₃, houtput, hinput, hsources, hgraph, -, hprotocol⟩ :=
    insertPeriodActorsOf_eq_ok h
  have hw₁ := hw.addPort houtput
  have hstart : Listed origin (r ++ [(m, [])]) { w with graph := g₂ } := (hw₁.addPort hinput).turn m
  have hequips : Equips m output input (g₂.instances m.type) g₂ :=
    equips_of_addPort hw.inserted.grown.wellFormed houtput hinput
  let I (done : List (Actor × Nat)) (sources : List Actor) (w' : Workspace) : Prop :=
    ∃ cs, Listed origin (r ++ [(m, cs)]) w' ∧ cs.map (·.source.actor) = done.map Prod.fst ∧
      cs.map (·.target.actor) = sources ∧ Equips m output input (g₂.instances m.type) w'.graph ∧
      w'.protocol.sources = w.protocol.sources
  obtain ⟨cs, hend, hfeeders, rfl, -, hold⟩ : I (g₂.instances m.type).zipIdx sources w₃ := by
    refine mapM_keeps (I := I) (fun done item later sources w₁ source w₂ hitems hw₁ hstep => ?_)
      (List.nil_append _) ⟨[], hstart, rfl, rfl, hequips, rfl⟩ hsources
    obtain ⟨cs, hlisted, hfeeders, rfl, hports, hold⟩ := hw₁
    have hfeeder : item.1 ∈ g₂.instances m.type :=
      List.fst_mem_of_mem_zipIdx (hitems ▸ List.mem_append_right _ List.mem_cons_self)
    obtain ⟨c, hlisted', hc, hc', hports', hold'⟩ :=
      insertPeriodActor_listed hm hlisted hports hfeeder hstep
    refine ⟨cs ++ [c], hlisted', ?_, ?_, hports', hold'.trans hold⟩
    · rw [List.map_append, List.map_append, hfeeders, List.map_singleton, List.map_singleton, hc]
    · rw [List.map_append, List.map_singleton, hc']
  have hactors : g₂.actors = w.graph.actors := by
    obtain ⟨-, -, rfl⟩ := Graph.addPort_eq_ok hinput
    obtain ⟨-, -, rfl⟩ := Graph.addPort_eq_ok houtput
    rfl
  refine ⟨cs, ⟨?_, hgraph ▸ hend.enrolled⟩, ?_, by rw [hprotocol, hold]⟩
  · have hinserted := hend.inserted
    refine { hinserted with grown := hgraph ▸ hinserted.grown, feeders_eq := ?_ }
    rw [hprotocol]
    exact hinserted.feeders_eq
  · rw [hfeeders, List.zipIdx_map_fst, Graph.instances, hactors]
    rfl

/-- A roster of all that was added for some modifiers. Each of them is fed from the actors of its
type that were there when its turn came, in the order of the graph. -/
structure Recorded (origin : Graph) (r : Roster) (w : Workspace) : Prop
    extends Listed origin r w where
  present : ∀ (before : Roster) (row : Modifier × List Channel) (later : Roster),
    before ++ row :: later = r →
      row.2.map (·.source.actor) =
        (origin.actors ++ before.sources).filter (·.type == row.1.type)
  sources_eq : w.protocol.sources =
    r.map fun row => (row.1.parameter, row.2.map (·.target.actor))

private theorem insertPeriodActorsOf_recorded (hm : m ∈ origin.modifiers)
    (hnew : m.parameter ∉ r.map (·.1.parameter)) (hw : Recorded origin r w)
    (h : insertPeriodActorsOf m w = .ok () w') : ∃ cs, Recorded origin (r ++ [(m, cs)]) w' := by
  obtain ⟨cs, hlisted, hfeeders, hsources⟩ := insertPeriodActorsOf_listed hm hw.toListed h
  refine ⟨cs, hlisted, fun before row later hsplit => ?_, ?_⟩
  · obtain rfl | ⟨later, last, rfl⟩ := List.eq_nil_or_concat later
    · obtain ⟨rfl, hlast⟩ := List.append_inj' hsplit rfl
      obtain rfl := List.singleton_inj.mp hlast
      rw [hfeeders, Graph.instances, hw.inserted.grown.actors_eq]
    · rw [List.concat_eq_append, ← List.cons_append, ← List.append_assoc] at hsplit
      exact hw.present before row later (List.append_inj' hsplit rfl).1
  · have hkeys : m.parameter ∉ w.protocol.sources.map Prod.fst := by
      rw [hw.sources_eq, List.map_map]
      exact hnew
    rw [hsources, Assoc.insert_of_notMem hkeys, hw.sources_eq, List.map_append]
    rfl

private theorem insertPeriodActors_recorded (hg : w.graph.WellFormed)
    (hsources : w.protocol.sources = [])
    (hfeeders : w.protocol.feeders = []) (h : insertPeriodActors w = .ok () w') :
    ∃ r, Recorded w.graph r w' ∧ r.map Prod.fst = w.graph.modifiers := by
  obtain ⟨-, h⟩ := insertPeriodActors_eq_ok h
  have hstart : Recorded w.graph [] { w with protocol := { w.protocol with inserted := true } } :=
    ⟨⟨⟨.refl hg, rfl, by simp [Roster.sources, Roster.channels], by simp [Roster.channels],
      hfeeders⟩, by simp⟩, by simp, hsources⟩
  refine forM_keeps (I := fun done w' => ∃ r, Recorded w.graph r w' ∧ r.map Prod.fst = done)
    (fun done m later w₁ w₂ hdone hw₁ hstep => ?_) (List.nil_append _) ⟨[], hstart, rfl⟩ h
  obtain ⟨r, hrecorded, rfl⟩ := hw₁
  have hnew := parameter_notMem hg hdone
  rw [List.map_map] at hnew
  obtain ⟨cs, hrecorded'⟩ := insertPeriodActorsOf_recorded
    (hdone ▸ List.mem_append_right _ List.mem_cons_self) hnew hrecorded hstep
  exact ⟨r ++ [(m, cs)], hrecorded', by rw [List.map_append]; rfl⟩

end Insertion

section Uniqueness

variable {origin : Graph} {r : Roster} {w : Workspace} {row row' : Modifier × List Channel}
  {c c' : Channel}

/-- A modifier has one channel for each actor that it is fed from. -/
theorem Recorded.channel_eq (hw : Recorded origin r w)
    (hnodup : (r.map (·.1.parameter)).Nodup) (hrow : row ∈ r) (hrow' : row' ∈ r)
    (hparameter : row'.1.parameter = row.1.parameter) (hc : c ∈ row.2) (hc' : c' ∈ row'.2)
    (hfeeder : c'.source.actor = c.source.actor) : c' = c := by
  obtain rfl : row' = row := List.inj_on_of_nodup_map hnodup hrow' hrow hparameter
  obtain ⟨(before : Roster), later, hsplit⟩ := List.append_of_mem hrow
  have hpresent := hw.present before row' later hsplit.symm
  -- The actors that were there when the modifier had its turn are there at the end.
  have hactors : (origin.actors ++ before.sources).Sublist w.graph.actors := by
    rw [hw.inserted.grown.actors_eq, hsplit, Roster.sources, Roster.sources,
      Roster.channels_append, List.map_append, ← List.append_assoc]
    exact List.sublist_append_left _ _
  have hfeeders : (row'.2.map (·.source.actor)).Nodup := by
    rw [hpresent]
    exact (hw.inserted.grown.wellFormed.nodup_actor_ids.of_map.sublist hactors).filter _
  exact List.inj_on_of_nodup_map hfeeders hc' hc hfeeder

/-- Each actor that a modifier is fed from has one channel from its port for the parameter, and feeds
one period actor of the parameter, which is at the other end. -/
theorem Recorded.feeds_one (hw : Recorded origin r w) (hnodup : (r.map (·.1.parameter)).Nodup)
    (hrow : row ∈ r) {a : Actor} (ha : a ∈ row.2.map (·.source.actor)) :
    ∃ c ∈ r.channels, Enrolled w.graph row.1 c ∧ c.source.actor = a ∧
      w.protocol.feederOf c.target.actor = .ok a ∧
      (∀ d ∈ r.channels, d.source.actor = a →
        d.source.port.name = s!"_{row.1.parameter}_out" → d = c) ∧
      ∀ source ∈ r.sources, source.type = periodType row.1.parameter →
        w.protocol.feederOf source = .ok a → source = c.target.actor := by
  obtain ⟨c, hc, rfl⟩ := List.mem_map.mp ha
  have hmem := Roster.mem_channels hrow hc
  refine ⟨c, hmem, hw.enrolled row hrow c hc, rfl, hw.inserted.feederOf_eq hmem,
    fun d hd hfeeder hname => ?_, fun source hsource htype hfeeder => ?_⟩
  · obtain ⟨row', hrow', hd'⟩ := List.mem_flatMap.mp hd
    rw [(hw.enrolled row' hrow' d hd').output_name] at hname
    exact hw.channel_eq hnodup hrow hrow' (parameter_eq_of_output hname) hc hd' hfeeder
  · obtain ⟨d, hd, rfl⟩ := List.mem_map.mp hsource
    obtain ⟨row', hrow', hd'⟩ := List.mem_flatMap.mp hd
    rw [(hw.enrolled row' hrow' d hd').source_type] at htype
    rw [hw.inserted.feederOf_eq hd] at hfeeder
    rw [hw.channel_eq hnodup hrow hrow' (periodType_injective htype) hc hd'
      (Except.ok.inj hfeeder)]

end Uniqueness

end Workspace

/-- Why the parameters cannot be settled: the first modifier that is not fed from exactly one
actor. -/
def Roster.ambiguity? (r : Roster) : Option Failure :=
  (r.find? fun row => row.2.length != 1).map fun row =>
    .ambiguousModifier row.1.parameter row.1.type (row.2.map (·.source.actor.name))

/-- A rate that can be read is found, whatever rates are kept. -/
theorem RateCache.exists_rate? {g : Graph} {p : Port}
    (h : ∀ text ∈ g.rateText? p, (Monomial.parse text).isOk = true) (cache : RateCache) :
    ∃ found cache', rate? g p cache = .ok found cache' := by
  rw [rate?, get_bind_apply]
  cases cache.entries.lookup p.id with
  | some m => exact ⟨_, _, rfl⟩
  | none =>
    cases htext : g.rateText? p with
    | none => exact ⟨_, _, rfl⟩
    | some text =>
      obtain ⟨m, hparse⟩ := Except.isOk_iff.mp (h text htext)
      dsimp only
      rw [hparse]
      exact ⟨_, _, rfl⟩

/-- Every rate in a graph can be read. -/
def Graph.AllRead (g : Graph) : Prop :=
  ∀ p ∈ g.ports, ∀ text ∈ g.rateText? p, (Monomial.parse text).isOk = true

instance (g : Graph) : Decidable g.AllRead :=
  inferInstanceAs (Decidable (∀ p ∈ g.ports, _))

namespace Workspace

section Settlement

variable {origin : Graph} {r rows : Roster} {w w₁ : Workspace} {row : Modifier × List Channel}

private theorem mapM_feederOf {p : Protocol} {cs : List Channel}
    (h : ∀ c ∈ cs, p.feederOf c.target.actor = .ok c.source.actor) (w : Workspace) :
    (cs.map (·.target.actor)).mapM
        (fun source => (liftM (p.feederOf source) : Action Workspace Actor)) w =
      .ok (cs.map (·.source.actor)) w := by
  induction cs with
  | nil => rfl
  | cons c cs ih =>
    obtain ⟨hfirst, hrest⟩ := List.forall_mem_cons.mp h
    rw [List.map_cons, List.mapM_cons, hfirst]
    exact (bind_of_ok rfl).trans (bind_of_ok (ih hrest))

/-- A parameter is settled when it is fed from exactly one actor. -/
theorem Recorded.settleModifier_cases (hw : Recorded origin r w) (hrow : row ∈ r)
    (hm : row.1 ∈ origin.modifiers) (hgraph : w₁.graph = w.graph)
    (hfeeders : w₁.protocol.feeders = w.protocol.feeders) :
    (row.2.length = 1 ∧ ∃ protocol, protocol.feeders = w.protocol.feeders ∧
        settleModifier row.1.parameter (row.2.map (·.target.actor)) w₁ =
          .ok () { w₁ with protocol }) ∨
      row.2.length ≠ 1 ∧ settleModifier row.1.parameter (row.2.map (·.target.actor)) w₁ =
        .error (.ambiguousModifier row.1.parameter row.1.type
          (row.2.map (·.source.actor.name))) w₁ := by
  have hmodifier : w₁.graph.modifierOf row.1.parameter = .ok row.1 := by
    rw [hgraph, hw.inserted.grown.wellFormed.modifierOf_eq_ok_iff]
    exact ⟨hw.inserted.grown.modifiers_eq ▸ hm, rfl⟩
  have hlookups : ∀ c ∈ row.2, w₁.protocol.feederOf c.target.actor = .ok c.source.actor := by
    intro c hc
    rw [Protocol.feederOf, hfeeders]
    exact hw.inserted.feederOf_eq (Roster.mem_channels hrow hc)
  rw [settleModifier, get_bind_apply, hmodifier, lift_bind_apply]
  dsimp only
  rw [bind_of_ok (mapM_feederOf hlookups w₁)]
  obtain ⟨m, cs⟩ := row
  cases cs with
  | nil => exact .inr ⟨by simp, rfl⟩
  | cons c cs =>
    cases cs with
    | nil =>
      have hkept := Protocol.Agrees.addModified (p := w₁.protocol) ⟨rfl, rfl, rfl, rfl⟩
        c.source.actor m.parameter
      exact .inl ⟨rfl, _, hkept.feeders_eq.trans hfeeders, rfl⟩
    | cons c' cs =>
      refine .inr ⟨by simp, ?_⟩
      simp only [List.map_cons, List.map_map, Function.comp_def]
      rfl

/-- The parameters are settled one after the other, until one is not fed from exactly one actor. -/
theorem Recorded.forM_settleModifier (hw : Recorded origin r w)
    (hrows : ∀ row ∈ rows, row ∈ r ∧ row.1 ∈ origin.modifiers) (w₁ : Workspace)
    (hgraph : w₁.graph = w.graph) (hfeeders : w₁.protocol.feeders = w.protocol.feeders) :
    (∃ w₂, (rows.map fun row => (row.1.parameter, row.2.map (·.target.actor))).forM
          (fun entry => settleModifier entry.1 entry.2) w₁ = .ok () w₂ ∧
        w₂.graph = w.graph ∧ rows.ambiguity? = none) ∨
      ∃ e w₂, (rows.map fun row => (row.1.parameter, row.2.map (·.target.actor))).forM
          (fun entry => settleModifier entry.1 entry.2) w₁ = .error e w₂ ∧
        rows.ambiguity? = some e := by
  induction rows generalizing w₁ with
  | nil => exact .inl ⟨w₁, rfl, hgraph, rfl⟩
  | cons row rows ih =>
    obtain ⟨⟨hrow, hm⟩, hrest⟩ := List.forall_mem_cons.mp hrows
    obtain ⟨hsingle, protocol, hkept, hstep⟩ | ⟨hmany, hstep⟩ :=
      hw.settleModifier_cases hrow hm hgraph hfeeders
    · have hskip : Roster.ambiguity? (row :: rows) = Roster.ambiguity? rows := by
        simp [Roster.ambiguity?, hsingle]
      rw [hskip]
      obtain ⟨w₂, hrun, hsame, hnone⟩ | ⟨e, w₂, hrun, hsome⟩ :=
        ih hrest { w₁ with protocol } hgraph hkept
      · exact .inl ⟨w₂, (bind_of_ok hstep).trans hrun, hsame, hnone⟩
      · exact .inr ⟨e, w₂, (bind_of_ok hstep).trans hrun, hsome⟩
    · exact .inr ⟨_, w₁, bind_of_error hstep, by simp [Roster.ambiguity?, hmany]⟩

/-- The search for parameters of the environment succeeds when every rate can be read, whatever rates
are kept already. -/
theorem exists_collectOccurrences {p : Port} (h : ∀ text ∈ w.graph.rateText? p,
    (Monomial.parse text).isOk = true) :
    ∃ w', collectOccurrences p w = .ok () w' ∧ w'.graph = w.graph := by
  obtain ⟨found, rates, hfound⟩ := RateCache.exists_rate? h w.rates
  have hstep : onRates (RateCache.rate? w.graph p) w = .ok found { w with rates } :=
    within_eq_ok_iff.mpr ⟨rates, hfound, rfl⟩
  rw [collectOccurrences, get_bind_apply, bind_of_ok hstep]
  cases found with
  | none => exact ⟨_, rfl, rfl⟩
  | some rate => exact ⟨_, rfl, rfl⟩

private theorem exists_forM_collectOccurrences {ports : List Port} (h : ∀ p ∈ ports,
    ∀ text ∈ w.graph.rateText? p, (Monomial.parse text).isOk = true) :
    ∃ w', ports.forM collectOccurrences w = .ok () w' := by
  induction ports generalizing w with
  | nil => exact ⟨w, rfl⟩
  | cons p ports ih =>
    obtain ⟨hfirst, hrest⟩ := List.forall_mem_cons.mp h
    obtain ⟨w₁, hstep, hgraph⟩ := exists_collectOccurrences hfirst
    obtain ⟨w', hports⟩ := ih (hgraph ▸ hrest)
    exact ⟨w', (bind_of_ok hstep).trans hports⟩

private theorem Recorded.failure?_identifySources (hw : Recorded origin r w)
    (hmodifiers : r.map Prod.fst = origin.modifiers) (hread : w.graph.AllRead) (rates : RateCache) :
    identifySources.failure? { w with rates } = r.ambiguity? := by
  have hrows : ∀ row ∈ r, row ∈ r ∧ row.1 ∈ origin.modifiers := fun row hrow =>
    ⟨hrow, hmodifiers ▸ List.mem_map_of_mem hrow⟩
  have hsettle := hw.forM_settleModifier hrows { w with rates } rfl rfl
  rw [← hw.sources_eq] at hsettle
  obtain ⟨w₂, hrun, hgraph, hnone⟩ | ⟨e, w₂, hrun, hsome⟩ := hsettle
  · obtain ⟨w₃, hcollect⟩ := exists_forM_collectOccurrences (hgraph ▸ hread)
    rw [hnone, failure?_eq_none_iff, identifySources, get_bind_apply, bind_of_ok hrun,
      get_bind_apply, bind_of_ok hcollect, get_bind_apply]
    cases w₃.protocol.environment.isEmpty with
    | true => exact ⟨_, _, rfl⟩
    | false => exact ⟨_, _, rfl⟩
  · rw [hsome, failure?_eq_some_iff, identifySources, get_bind_apply]
    exact ⟨w₂, bind_of_error hrun⟩

end Settlement

/-- `insertPeriodActors` adds a period actor for each modifier and each actor of its type that is
present at its turn, and nothing else but channels and ports. Each period actor has a name and a
channel of its own and is recorded with its feeder. `identifySources` then succeeds unless a
parameter has no feeder or several, and fails with the first such parameter. -/
theorem insertPeriodActors_roster {w w' : Workspace} (hg : w.graph.Reachable)
    (hfresh : w.protocol.sources = [] ∧ w.protocol.feeders = [])
    (h : insertPeriodActors w = .ok () w') :
    ∃ r : Roster, r.map Prod.fst = w.graph.modifiers ∧ Recorded w.graph r w' ∧
      (∀ row ∈ r, ∀ a ∈ row.2.map (·.source.actor),
        ∃ c ∈ r.channels, Enrolled w'.graph row.1 c ∧ c.source.actor = a ∧
          w'.protocol.feederOf c.target.actor = .ok a ∧
          (∀ d ∈ r.channels, d.source.actor = a →
            d.source.port.name = s!"_{row.1.parameter}_out" → d = c) ∧
          ∀ source ∈ r.sources, source.type = periodType row.1.parameter →
            w'.protocol.feederOf source = .ok a → source = c.target.actor) ∧
      (w'.graph.actors.map (·.name)).Nodup ∧
      (w'.graph.AllRead → ∀ rates,
        identifySources.failure? { w' with rates } = r.ambiguity?) := by
  obtain ⟨r, hrecorded, hmodifiers⟩ :=
    insertPeriodActors_recorded hg.wellFormed hfresh.1 hfresh.2 h
  have hnodup : (r.map (·.1.parameter)).Nodup := by
    have hparameters := hg.wellFormed.nodup_parameters
    rwa [← hmodifiers, List.map_map] at hparameters
  exact ⟨r, hmodifiers, hrecorded,
    fun row hrow a ha => hrecorded.feeds_one hnodup hrow ha,
    hrecorded.inserted.grown.wellFormed.nodup_names,
    hrecorded.failure?_identifySources hmodifiers⟩

/-- Two actors that set a parameter. Their period actors set another one. -/
def crowded : Graph :=
  Graph.performAll (.empty none)
    [ .addActor "a" "A" 0 false, .addActor "b" "A" 0 false, .addModifier ⟨"A", "p", "int", "3"⟩,
      .addModifier ⟨"<p>", "q", "int", "2*p"⟩ ]

theorem insertPeriodActors_roster_crowded :
    ∃ w' r, insertPeriodActors ⟨crowded, .empty, .empty, []⟩ = .ok () w' ∧
      Recorded crowded r w' ∧
      w'.graph.actors.map (·.name) = ["a", "b", "<p>#0", "<p>#1", "<q>#0", "<q>#1"] ∧
      w'.graph.AllRead ∧
      r.ambiguity? = some (.ambiguousModifier "p" "A" ["a", "b"]) := by
  have hreachable : crowded.Reachable := (Graph.Reachable.empty none).performAll _
  have hends : (match insertPeriodActors ⟨crowded, .empty, .empty, []⟩ with
      | .ok _ w => decide (w.graph.actors.map (·.name) =
          ["a", "b", "<p>#0", "<p>#1", "<q>#0", "<q>#1"] ∧ w.graph.AllRead ∧
          identifySources.failure? w = some (.ambiguousModifier "p" "A" ["a", "b"]))
      | .error _ _ => false) = true := by
    decide +kernel
  cases hinsert : insertPeriodActors ⟨crowded, .empty, .empty, []⟩ with
  | error e w => simp [hinsert] at hends
  | ok _ w' =>
    rw [hinsert] at hends
    obtain ⟨hnames, hread, hfails⟩ := of_decide_eq_true hends
    obtain ⟨r, -, hrecorded, -, -, hsettled⟩ :=
      insertPeriodActors_roster hreachable ⟨rfl, rfl⟩ hinsert
    exact ⟨w', r, rfl, hrecorded, hnames, hread, (hsettled hread w'.rates).symm.trans hfails⟩

end Workspace

end Dataflow
