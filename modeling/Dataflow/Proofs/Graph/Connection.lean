import Dataflow.Proofs.Graph.Extension

namespace Dataflow.Graph

open Dataflow.Action

variable {g g' : Graph} {source target : Actor} {sourceRate targetRate : String}
  {initialTokens tokenSize : Int}

/-- The name of the port through which an actor is connected next. -/
def portNumbered (g : Graph) (a : Actor) : String :=
  s!"p_{(g.channelsOf a).length}"

/-- The port through which an actor is connected next can still be added, or goes the right way. -/
def Admits (g : Graph) (a : Actor) (direction : Direction) : Prop :=
  ∀ p ∈ g.ports, p.type = a.type → p.name = g.portNumbered a → p.direction = direction

/-- Two actors are connected next through different ports, or through one that is there already. -/
def TellsApart (g : Graph) (a b : Actor) : Prop :=
  a.type = b.type → g.portNumbered a = g.portNumbered b → g.hasPort a.type (g.portNumbered a) = true

instance (g : Graph) (a : Actor) (direction : Direction) : Decidable (g.Admits a direction) :=
  inferInstanceAs (Decidable (∀ p ∈ g.ports, _))

instance (g : Graph) (a b : Actor) : Decidable (g.TellsApart a b) :=
  inferInstanceAs (Decidable (_ → _))

/-- A new channel between two actors with the given rates, tokens and token size. A port that was
missing has the given rate, and one that the type had keeps its own. -/
structure Connects (g g' : Graph) (source target : Actor) (sourceRate targetRate : String)
    (initialTokens tokenSize : Int) (c : Channel) : Prop where
  grown : g.Extends g' [] [c]
  id_ge : g.nextHandle ≤ c.id
  name_eq : c.name = some s!"{source.name}to{target.name}"
  tokens_eq : (c.initialTokens : Int) = initialTokens
  size_eq : c.tokenSize = tokenSize
  auto_eq : c.auto = false
  source_eq : c.source.actor = source
  target_eq : c.target.actor = target
  output_name : c.source.port.name = g.portNumbered source
  input_name : c.target.port.name = g.portNumbered target
  output_rate : g'.rateText? c.source.port =
    if c.source.port ∈ g.ports then g.rateText? c.source.port else some sourceRate
  input_rate : g'.rateText? c.target.port =
    if c.target.port ∈ g.ports then g.rateText? c.target.port else some targetRate

/-- An actor and a port of its type are an end that fits, unless the port goes the other way. -/
theorem WellFormed.endpoint_eq (hg : g.WellFormed) {a : Actor} {p : Port} (ha : a ∈ g.actors)
    (hp : p ∈ g.ports) (htype : p.type = a.type) (direction : Direction) :
    g.endpoint (a.name, p.name) direction =
      if p.direction = direction then .ok ⟨a, p⟩
      else .error (.wrongDirection direction a.name p.name) := by
  have hport := hg.portNamed_eq hp
  rw [htype] at hport
  simp only [endpoint, hg.actorNamed_eq ha, hport, bind, Except.bind]
  rfl

/-- After `ensurePort` the type has a port of the name: the one that it had, or a new one with the
given direction and rate. -/
theorem exists_ensurePort (hg : g.WellFormed) (type name : String) (direction : Direction)
    (rate : String) :
    ∃ p g', ensurePort type name direction rate g = .ok () g' ∧ g.Extends g' [] [] ∧
      g.nextHandle ≤ g'.nextHandle ∧ p ∈ g'.ports ∧ p.type = type ∧ p.name = name ∧
      (p ∈ g.ports ∧ g' = g ∨
        p ∉ g.ports ∧ p.direction = direction ∧ g'.ports = g.ports ++ [p] ∧
          g'.rateText? p = some rate) := by
  cases hport : g.hasPort type name with
  | true =>
    obtain ⟨p, hp, htype, hname⟩ := hasPort_iff.mp hport
    refine ⟨p, g, ?_, .refl hg, Nat.le_refl _, hp, htype, hname, .inl ⟨hp, rfl⟩⟩
    rw [ensurePort, get_bind_apply, hport]
    rfl
  | false =>
    have hadd : ∃ p g', addPort type name direction (some rate) g = .ok p g' := by
      rw [addPort_eq, hport]
      exact ⟨_, _, rfl⟩
    obtain ⟨p, g', hadd⟩ := hadd
    have hgrown := (Extends.refl hg).addPort hadd
    have hrate := rateText?_of_addPort hg hadd
    obtain ⟨-, rfl, rfl⟩ := addPort_eq_ok hadd
    refine ⟨_, _, ?_, hgrown, Nat.le_succ _, List.mem_append_right _ List.mem_cons_self, rfl, rfl,
      .inr ⟨fun hp => ?_, rfl, rfl, hrate⟩⟩
    · rw [ensurePort, get_bind_apply, hport]
      exact bind_eq_ok_iff.mpr ⟨_, _, hadd, rfl⟩
    · exact Nat.lt_irrefl _ (hg.port_id_lt (List.mem_map_of_mem hp))

/-- The port through which an actor is connected next. A new one has the given direction and
rate. -/
structure Offers (g g' : Graph) (a : Actor) (direction : Direction) (rate : String) (p : Port) :
    Prop where
  mem : p ∈ g'.ports
  type_eq : p.type = a.type
  name_eq : p.name = g.portNumbered a
  old_or_new : p ∈ g.ports ∨ p ∉ g.ports ∧ p.direction = direction ∧ g'.rateText? p = some rate

namespace Offers

variable {a : Actor} {direction : Direction} {rate : String} {p : Port}

/-- The port goes the right way unless it was there before and goes the other way. -/
theorem admits_iff (h : Offers g g' a direction rate p) (hgrown : g.Extends g' [] []) :
    g.Admits a direction ↔ p.direction = direction := by
  constructor
  · intro hadmits
    obtain hold | ⟨-, hdirection, -⟩ := h.old_or_new
    · exact hadmits p hold h.type_eq h.name_eq
    · exact hdirection
  · intro hdirection q hq htype hname
    have hsame : q = p := hgrown.wellFormed.port_eq_of_name (hgrown.ports.subset hq) h.mem
      (htype.trans h.type_eq.symm) (hname.trans h.name_eq.symm)
    exact hsame ▸ hdirection

private theorem rateText?_eq (h : Offers g g' a direction rate p) (hgrown : g.Extends g' [] []) :
    g'.rateText? p = if p ∈ g.ports then g.rateText? p else some rate := by
  obtain hold | ⟨hnew, -, hrate⟩ := h.old_or_new
  · rw [if_pos hold, hgrown.rateText?_eq p hold]
  · rw [if_neg hnew, hrate]

end Offers

/-- Two actors whose numbered ports differ get their ports, neither of which takes the place of the
other. -/
theorem exists_offers (hg : g.WellFormed) (hports : g.TellsApart source target)
    (sourceRate targetRate : String) :
    ∃ p q g',
      (do
        ensurePort source.type (g.portNumbered source) .output sourceRate
        ensurePort target.type (g.portNumbered target) .input targetRate) g = .ok () g' ∧
      g.Extends g' [] [] ∧ g.nextHandle ≤ g'.nextHandle ∧
      Offers g g' source .output sourceRate p ∧ Offers g g' target .input targetRate q := by
  obtain ⟨p, g₁, hfirst, hgrown, hnext, hp, hptype, hpname, hpnew⟩ :=
    exists_ensurePort hg source.type (g.portNumbered source) .output sourceRate
  obtain ⟨q, g₂, hsecond, hgrown₂, hnext₂, hq, hqtype, hqname, hqnew⟩ :=
    exists_ensurePort hgrown.wellFormed target.type (g.portNumbered target) .input targetRate
  have hall : g.Extends g₂ [] [] := hgrown.trans hgrown₂
  refine ⟨p, q, g₂, bind_eq_ok_iff.mpr ⟨_, _, hfirst, hsecond⟩, hall, Nat.le_trans hnext hnext₂,
    ⟨hgrown₂.ports.subset hp, hptype, hpname, ?_⟩, ⟨hq, hqtype, hqname, ?_⟩⟩
  · refine hpnew.imp And.left fun ⟨hnew, hdirection, _, hrate⟩ => ⟨hnew, hdirection, ?_⟩
    rw [hgrown₂.rateText?_eq p hp, hrate]
  · obtain ⟨hold, -⟩ | ⟨hnew, hdirection, -, hrate⟩ := hqnew
    · obtain ⟨-, rfl⟩ | ⟨hnew, -, hadded, -⟩ := hpnew
      · exact .inl hold
      · rw [hadded] at hold
        refine .inl ((List.mem_append.mp hold).resolve_right fun hlast => ?_)
        -- The port that was added for the source is none that the target could have had.
        obtain rfl := List.mem_singleton.mp hlast
        obtain ⟨r, hr, hrtype, hrname⟩ := hasPort_iff.mp
          (hports (hptype.symm.trans hqtype) (hpname.symm.trans hqname))
        have hsame : r = q := hgrown.wellFormed.port_eq_of_name (hgrown.ports.subset hr) hp
          (hrtype.trans hptype.symm) (hrname.trans hpname.symm)
        exact hnew (hsame ▸ hr)
    · exact .inr ⟨fun hmem => hnew (hgrown.ports.subset hmem), hdirection, hrate⟩

/-- A channel between two ports is refused when one of them goes the other way, the source first. -/
theorem addChannel_of_ports (hg : g.WellFormed) (hsource : source ∈ g.actors)
    (htarget : target ∈ g.actors) {p q : Port} (hp : p ∈ g.ports) (hq : q ∈ g.ports)
    (hptype : p.type = source.type) (hqtype : q.type = target.type) (spec : ChannelSpec)
    (htokens : 0 ≤ spec.initialTokens) :
    addChannel (source.name, p.name) (target.name, q.name) spec g =
      if p.direction = .output then
        if q.direction = .input then
          let channel : Channel :=
            ⟨g.nextHandle, spec.name, spec.initialTokens.toNat, spec.tokenSize, spec.auto,
              ⟨source, p⟩, ⟨target, q⟩⟩
          .ok channel
            { g with
              channels := g.channels ++ [channel]
              linked := g.linked ++ [channel]
              nextHandle := g.nextHandle + 1 }
        else .error (.wrongDirection .input target.name q.name)
          { g with nextHandle := g.nextHandle + 1 }
      else .error (.wrongDirection .output source.name p.name)
        { g with nextHandle := g.nextHandle + 1 } := by
  rw [addChannel_eq, if_neg (Int.not_lt.mpr htokens), hg.endpoint_eq hsource hp hptype,
    hg.endpoint_eq htarget hq hqtype]
  by_cases houtput : p.direction = .output <;> by_cases hinput : q.direction = .input <;>
    simp only [houtput, hinput, if_true, if_false]

/-- `insertChannelBetween` connects two actors whose numbered ports differ, if the ports that their
types have under these names go the right way, and uses such a port with the rate that it has.
Otherwise it fails with a wrong direction, and the graph has at most more ports. -/
theorem insertChannelBetween_connects (hg : g.Reachable) (hsource : source ∈ g.actors)
    (htarget : target ∈ g.actors) (htokens : 0 ≤ initialTokens)
    (hports : g.TellsApart source target) (sourceRate targetRate : String) (tokenSize : Int) :
    (g.Admits source .output ∧ g.Admits target .input ∧ ∃ c g',
        insertChannelBetween source target sourceRate targetRate initialTokens tokenSize g =
          .ok c g' ∧
        Connects g g' source target sourceRate targetRate initialTokens tokenSize c) ∨
      ¬ (g.Admits source .output ∧ g.Admits target .input) ∧ ∃ g',
        insertChannelBetween source target sourceRate targetRate initialTokens tokenSize g =
          .error
            (if g.Admits source .output then
              .wrongDirection .input target.name (g.portNumbered target)
            else .wrongDirection .output source.name (g.portNumbered source)) g' ∧
        g.Extends g' [] [] := by
  obtain ⟨p, q, g₂, hensure, hgrown, hnext, hp, hq⟩ :=
    exists_offers hg.wellFormed hports sourceRate targetRate
  have hactors : g₂.actors = g.actors := by rw [hgrown.actors_eq, List.append_nil]
  have hrun : insertChannelBetween source target sourceRate targetRate initialTokens tokenSize g =
      addChannel (source.name, p.name) (target.name, q.name)
        { initialTokens, tokenSize, name := some s!"{source.name}to{target.name}" } g₂ := by
    obtain ⟨_, g₁, hfirst, hsecond⟩ := bind_eq_ok_iff.mp hensure
    rw [insertChannelBetween, get_bind_apply, hp.name_eq, hq.name_eq]
    exact (bind_of_ok hfirst).trans (bind_of_ok hsecond)
  have hchannel := addChannel_of_ports hgrown.wellFormed (hactors ▸ hsource) (hactors ▸ htarget)
    hp.mem hq.mem hp.type_eq hq.type_eq
    { initialTokens, tokenSize, name := some s!"{source.name}to{target.name}" } htokens
  have houtputs := hp.admits_iff hgrown
  have hinputs := hq.admits_iff hgrown
  rw [hrun, ← hp.name_eq, ← hq.name_eq]
  by_cases houtput : g.Admits source .output
  · rw [if_pos (houtputs.mp houtput)] at hchannel
    by_cases hinput : g.Admits target .input
    · rw [if_pos (hinputs.mp hinput)] at hchannel
      refine .inl ⟨houtput, hinput, _, _, hchannel, ?_⟩
      exact {
        grown := hgrown.addChannel hchannel
        id_ge := hnext
        name_eq := rfl
        tokens_eq := Int.toNat_of_nonneg htokens
        size_eq := rfl
        auto_eq := rfl
        source_eq := rfl
        target_eq := rfl
        output_name := hp.name_eq
        input_name := hq.name_eq
        output_rate := hp.rateText?_eq hgrown
        input_rate := hq.rateText?_eq hgrown }
    · rw [if_neg fun h => hinput (hinputs.mpr h)] at hchannel
      refine .inr ⟨fun hboth => hinput hboth.2, _, ?_, hgrown.useHandle⟩
      rw [hchannel, if_pos houtput]
  · rw [if_neg fun h => houtput (houtputs.mpr h)] at hchannel
    refine .inr ⟨fun hboth => houtput hboth.1, _, ?_, hgrown.useHandle⟩
    rw [hchannel, if_neg houtput]

/-- Three actors of different types, two of which have a port that could be the next one. -/
def numbered : Graph :=
  performAll (.empty none)
    [ .addActor "a" "A" 0 false, .addActor "b" "B" 0 false, .addActor "c" "C" 0 false,
      .addPort "A" "p_0" .output (some "2"), .addPort "C" "p_0" .input (some "1") ]

theorem insertChannelBetween_connects_numbered :
    numbered.TellsApart ⟨0, "a", "A", 0, false⟩ ⟨1, "b", "B", 0, false⟩ ∧
      ∃ c g', insertChannelBetween ⟨0, "a", "A", 0, false⟩ ⟨1, "b", "B", 0, false⟩ "3" "5" 7 0
          numbered = .ok c g' ∧
        Connects numbered g' ⟨0, "a", "A", 0, false⟩ ⟨1, "b", "B", 0, false⟩ "3" "5" 7 0 c := by
  have hreachable : numbered.Reachable := (Reachable.empty none).performAll _
  have hports : numbered.TellsApart ⟨0, "a", "A", 0, false⟩ ⟨1, "b", "B", 0, false⟩ := by
    decide +kernel
  have hadmits : numbered.Admits ⟨0, "a", "A", 0, false⟩ .output ∧
      numbered.Admits ⟨1, "b", "B", 0, false⟩ .input := by
    decide +kernel
  have hsource : (⟨0, "a", "A", 0, false⟩ : Actor) ∈ numbered.actors := by decide +kernel
  have htarget : (⟨1, "b", "B", 0, false⟩ : Actor) ∈ numbered.actors := by decide +kernel
  have htokens : (0 : Int) ≤ 7 := by decide
  obtain ⟨-, -, hconnected⟩ | ⟨hrefused, -⟩ :=
    insertChannelBetween_connects hreachable hsource htarget htokens hports "3" "5" 0
  · exact ⟨hports, hconnected⟩
  · exact absurd hadmits hrefused

/-- A numbered port that the type has keeps its rate when another one is given, and a port of the
other direction is not replaced. -/
theorem numbered_ports_stay :
    numbered.Reachable ∧
      (∀ a ∈ [(⟨0, "a", "A", 0, false⟩ : Actor), ⟨1, "b", "B", 0, false⟩, ⟨2, "c", "C", 0, false⟩],
        a ∈ numbered.actors) ∧
      (∃ c g', insertChannelBetween ⟨0, "a", "A", 0, false⟩ ⟨1, "b", "B", 0, false⟩ "3" "5" 0 0
          numbered = .ok c g' ∧ g'.rateText? c.source.port = some "2") ∧
      ∃ g', insertChannelBetween ⟨2, "c", "C", 0, false⟩ ⟨1, "b", "B", 0, false⟩ "3" "5" 0 0
        numbered = .error (.wrongDirection .output "c" "p_0") g' := by
  refine ⟨(Reachable.empty none).performAll _, by decide +kernel, ⟨_, _, rfl, ?_⟩, _, rfl⟩
  decide +kernel

end Dataflow.Graph
