import Dataflow.Application
import Dataflow.Proofs.Graph.Growth
import Dataflow.Proofs.Graph.Refusals
import Mathlib.Data.List.TakeWhile

namespace Dataflow

open Dataflow.Action

/-- Whether a graph refused an operation, or a question about what it does not have. -/
def Failure.isStructural : Failure → Bool
  | .duplicateActor _ | .unknownActor _ | .unknownType _ | .duplicatePort .. | .unknownPort ..
  | .rateFixed _ | .negativeTokens .. | .wrongDirection .. | .unboundChannel _ | .notAtChannel ..
  | .duplicateModifier .. | .unknownModifier _ => true
  | _ => false

private theorem Failure.isStructural_of_isRefusal {e : Failure} (h : e.isRefusal = true) :
    e.isStructural = true := by
  cases e <;> first | rfl | cases h

namespace Application

section References

variable {text : String} {place : String × String} {e : Failure}

/-- A reference to a port is cut at the first point, and nothing on either side of it may be
missing. -/
theorem splitEndpoint_eq_ok_iff :
    splitEndpoint text = .ok place ↔
      text.toList = place.1.toList ++ '.' :: place.2.toList ∧ '.' ∉ place.1.toList ∧
        place.1 ≠ "" ∧ place.2 ≠ "" := by
  unfold splitEndpoint
  dsimp only
  constructor
  · intro h
    have hpoint := List.head?_dropWhile_not (· != '.') text.toList
    have hall := List.takeWhile_append_dropWhile (p := (· != '.')) (l := text.toList)
    split at h
    · rename_i c port hrest
      rw [hrest] at hpoint hall
      obtain rfl : c = '.' := by simpa using hpoint
      split at h
      · cases h
      · rename_i hparts
        cases h
        simp only [String.toList_ofList, ← String.toList_eq_nil_iff, ne_eq]
        simp only [Bool.or_eq_true, List.isEmpty_iff, not_or] at hparts
        exact ⟨hall.symm, fun hmem => by simpa using List.mem_takeWhile_imp hmem, hparts⟩
    · cases h
  · rintro ⟨htext, hpoint, hactor, hport⟩
    have hbefore : ∀ c ∈ place.1.toList, (c != '.') = true := fun c hc =>
      bne_iff_ne.mpr fun h => hpoint (h ▸ hc)
    rw [htext, List.dropWhile_append_of_pos hbefore, List.takeWhile_append_of_pos hbefore]
    simp [hactor, hport, String.ofList_toList]

private theorem splitEndpoint_eq_error (h : splitEndpoint text = .error e) :
    e = .malformedEndpoint text := by
  unfold splitEndpoint at h
  dsimp only at h
  split at h
  · split at h <;> cases h
    rfl
  · cases h
    rfl

/-- A text of the form `actor.port`. -/
def IsReference (text : String) : Prop :=
  ∃ actor port : String, text.toList = actor.toList ++ '.' :: port.toList ∧
    '.' ∉ actor.toList ∧ actor ≠ "" ∧ port ≠ ""

private theorem isReference_of_splitEndpoint (h : splitEndpoint text = .ok place) :
    IsReference text :=
  ⟨place.1, place.2, splitEndpoint_eq_ok_iff.mp h⟩

private theorem not_isReference_of_splitEndpoint (h : splitEndpoint text = .error e) :
    ¬ IsReference text := by
  rintro ⟨actor, port, hparts⟩
  have hok : splitEndpoint text = .ok (actor, port) := splitEndpoint_eq_ok_iff.mpr hparts
  rw [hok] at h
  cases h

end References

section Declarations

variable {g g' : Graph} {e : Failure} {place : String × String} {direction : Direction}
  {rate : Option String} {p : Port}

/-- A port of the graph that is named by an actor and its own name. -/
structure Names (g : Graph) (place : String × String) (p : Port) : Prop where
  mem : p ∈ g.ports
  exists_actor : ∃ a ∈ g.actors, a.name = place.1 ∧ p.type = a.type
  name_eq : p.name = place.2

private theorem Names.unique (hg : g.WellFormed) {q : Port} (hp : Names g place p)
    (hq : Names g place q) : p = q := by
  obtain ⟨a, ha, haname, hatype⟩ := hp.exists_actor
  obtain ⟨b, hb, hbname, hbtype⟩ := hq.exists_actor
  have hsame : a = b := hg.actor_eq_of_name ha hb (haname.trans hbname.symm)
  refine hg.port_eq_of_name hp.mem hq.mem ?_ (hp.name_eq.trans hq.name_eq.symm)
  rw [hatype, hbtype, hsame]

private theorem Names.lasts (h : Names g place p) (hchanges : Graph.Changes g g')
    (hactors : g'.actors = g.actors) : Names g' place p :=
  ⟨hchanges.mem_ports h.mem, hactors ▸ h.exists_actor, h.name_eq⟩

private theorem names_of_endpoint (hg : g.WellFormed) {found : Endpoint}
    (h : g.endpoint place direction = .ok found) : Names g place found.port := by
  obtain ⟨hfits, hactor, hport⟩ := hg.endpoint_eq_ok_iff.mp h
  exact ⟨hfits.port_mem, ⟨found.actor, hfits.actor_mem, hactor, hfits.type_eq⟩, hport⟩

/-- What a declaration makes of a graph. The port is there, or it is there and gets a rate, or it is
added. -/
inductive Declares (g : Graph) (place : String × String) (direction : Direction)
    (rate : Option String) : Graph → Prop
  | found {p : Port} (hp : Names g place p) (hrate : ∀ text ∈ rate, g.rateText? p = some text) :
    Declares g place direction rate g
  | rated {p : Port} {text : String} (hp : Names g place p) (hnone : g.rateText? p = none)
    (hrate : rate = some text) :
    Declares g place direction rate { g with rates := g.rates ++ [(p.id, text)] }
  | added {a : Actor} {p : Port} {g' : Graph} (ha : a ∈ g.actors) (hname : a.name = place.1)
    (hadd : Graph.addPort a.type place.2 direction rate g = .ok p g') :
    Declares g place direction rate g'

theorem declarePort_cases (g : Graph) (place : String × String) (direction : Direction)
    (rate : Option String) :
    (∃ g', declarePort place direction rate g = .ok () g' ∧ Declares g place direction rate g') ∨
      ∃ e, declarePort place direction rate g = .error e g ∧ e.isStructural = true := by
  rw [declarePort, get_bind_apply, lift_bind_apply]
  cases hactor : g.actorNamed place.1 with
  | error e =>
    exact .inr ⟨e, rfl, Failure.isStructural_of_isRefusal (Graph.isRefusal_of_actorNamed hactor)⟩
  | ok a =>
    obtain ⟨ha, hname⟩ := Graph.actorNamed_eq_ok hactor
    dsimp only
    rw [get_bind_apply]
    cases hport : g.hasPort a.type place.2 with
    | false =>
      have hadd := Graph.addPort_eq g a.type place.2 direction rate
      rw [hport] at hadd
      exact .inl ⟨_, bind_of_ok hadd, .added ha hname hadd⟩
    | true =>
      simp only [Bool.not_true, Bool.false_eq_true, if_false]
      rw [get_bind_apply, lift_bind_apply]
      cases hp : g.portNamed a.type place.2 with
      | error e =>
        exact .inr ⟨e, rfl, Failure.isStructural_of_isRefusal (Graph.isRefusal_of_portNamed hp)⟩
      | ok p =>
        obtain ⟨hmem, htype, hpname⟩ := Graph.portNamed_eq_ok hp
        have hnames : Names g place p := ⟨hmem, ⟨a, ha, hname, htype⟩, hpname⟩
        cases rate with
        | none => exact .inl ⟨g, rfl, .found hnames fun text h => nomatch h⟩
        | some wanted =>
          dsimp only
          rw [get_bind_apply]
          by_cases hrate : g.rateText? p = some wanted
          · simp only [hrate, ne_eq, not_true_eq_false, if_false]
            exact .inl ⟨g, rfl, .found hnames fun text h => by rw [hrate]; exact h⟩
          · simp only [hrate, ne_eq, not_false_eq_true, if_true]
            rw [Graph.setRate_eq]
            cases hpresent : g.rateText? p with
            | some present => exact .inr ⟨_, rfl, rfl⟩
            | none => exact .inl ⟨_, rfl, .rated hnames hpresent rfl⟩

private theorem declarePort_eq_ok (h : declarePort place direction rate g = .ok () g') :
    Declares g place direction rate g' := by
  obtain ⟨g₁, hok, hdeclared⟩ | ⟨e, herror, -⟩ := declarePort_cases g place direction rate
  · rw [hok] at h
    cases h
    exact hdeclared
  · rw [herror] at h
    cases h

private theorem declarePort_eq_error (h : declarePort place direction rate g = .error e g') :
    g' = g ∧ e.isStructural = true := by
  obtain ⟨g₁, hok, -⟩ | ⟨e', herror, hstructural⟩ := declarePort_cases g place direction rate
  · rw [hok] at h
    cases h
  · rw [herror] at h
    cases h
    exact ⟨rfl, hstructural⟩

/-- A port that was declared is in the graph, with the rate that was given. -/
theorem Declares.exists_port (hg : g.WellFormed) (h : Declares g place direction rate g') :
    ∃ p, Names g' place p ∧ ∀ text ∈ rate, g'.rateText? p = some text := by
  cases h with
  | found hp hrate => exact ⟨_, hp, hrate⟩
  | @rated p text hp hnone hrate =>
    refine ⟨p, ⟨hp.mem, hp.exists_actor, hp.name_eq⟩, ?_⟩
    rw [hrate]
    rintro text ⟨⟩
    rw [Graph.rateText?] at hnone
    simp [Graph.rateText?, List.lookup_append, hnone]
  | @added a p _ ha hname hadd =>
    have hrate : ∀ text ∈ rate, g'.rateText? p = some text := by
      rintro text rfl
      exact Graph.rateText?_of_addPort hg hadd
    obtain ⟨-, rfl, rfl⟩ := Graph.addPort_eq_ok hadd
    exact ⟨_, ⟨List.mem_append_right _ List.mem_cons_self, ⟨_, ha, hname, rfl⟩, rfl⟩, hrate⟩

theorem Declares.changes (h : Declares g place direction rate g') : Graph.Changes g g' := by
  cases h with
  | found _ _ => exact .refl
  | rated hp hnone _ => exact .single (.setRate hp.mem hnone _)
  | added _ _ hadd => exact Graph.addPort_changes.of_ok .refl hadd

private theorem Declares.frame (h : Declares g place direction rate g') :
    g'.actors = g.actors ∧ g'.channels = g.channels := by
  cases h with
  | found _ _ => exact ⟨rfl, rfl⟩
  | rated _ _ _ => exact ⟨rfl, rfl⟩
  | added _ _ hadd =>
    obtain ⟨-, -, rfl⟩ := Graph.addPort_eq_ok hadd
    exact ⟨rfl, rfl⟩

end Declarations

section Connections

variable {app next : Application} {source target text : String} {place : String × String}
  {rate sourceRate targetRate : Option String} {initialTokens : Int} {c : Channel} {e : Failure}
  {g g' : Graph} {p : Port} {direction : Direction}

private theorem addChannel_eq_error {from_ to_ : String × String} {spec : Graph.ChannelSpec}
    (h : Graph.addChannel from_ to_ spec g = .error e g') :
    g'.channels = g.channels ∧ e.isStructural = true := by
  rw [Graph.addChannel_eq] at h
  split at h
  · cases h
    exact ⟨rfl, rfl⟩
  · split at h
    · cases h
    · rename_i hsource
      cases h
      exact ⟨rfl, Failure.isStructural_of_isRefusal (Graph.isRefusal_of_endpoint hsource)⟩
    · rename_i htarget
      cases h
      exact ⟨rfl, Failure.isStructural_of_isRefusal (Graph.isRefusal_of_endpoint htarget)⟩

/-- A reference names a port of the graph, which has the rate if one is given. -/
def Holds (g : Graph) (text : String) (rate : Option String) (p : Port) : Prop :=
  ∃ place, splitEndpoint text = .ok place ∧ Names g place p ∧
    ∀ given ∈ rate, g.rateText? p = some given

/-- The rate that is given is another than the one that the port has. -/
def Conflicts (g : Graph) (text : String) (rate : Option String) : Prop :=
  ∃ place p, splitEndpoint text = .ok place ∧ Names g place p ∧
    ∃ given ∈ rate, ∃ present ∈ g.rateText? p, given ≠ present

/-- A port that keeps its rate does not get another. -/
theorem Conflicts.not_holds (h : Conflicts g text rate) (hg : g'.WellFormed)
    (hchanges : Graph.Changes g g') (hactors : g'.actors = g.actors) :
    ¬ Holds g' text rate p := by
  rintro ⟨place', hplace', hp, hrate⟩
  obtain ⟨place, q, hplace, hq, given, hgiven, present, hpresent, hne⟩ := h
  rw [hplace] at hplace'
  cases hplace'
  obtain rfl := (hq.lasts hchanges hactors).unique hg hp
  have hkept := hchanges.rateText?_eq hpresent
  rw [hrate given hgiven] at hkept
  exact hne (Option.some.inj hkept)

/-- The ports of a connection are those that were referred to, with the rates that were given. -/
theorem connect_eq_ok (hg : app.graph.WellFormed)
    (h : connect source target sourceRate targetRate initialTokens app = .ok c next) :
    Graph.Changes app.graph next.graph ∧ next.graph.actors = app.graph.actors ∧
      c ∈ next.graph.channels ∧ Holds next.graph source sourceRate c.source.port ∧
      Holds next.graph target targetRate c.target.port := by
  obtain ⟨place, _, hread, h⟩ := bind_eq_ok_iff.mp h
  obtain ⟨hplace, rfl⟩ := lift_eq_ok_iff.mp hread
  obtain ⟨place', _, hread', h⟩ := bind_eq_ok_iff.mp h
  obtain ⟨hplace', rfl⟩ := lift_eq_ok_iff.mp hread'
  obtain ⟨_, _, hstep₁, h⟩ := bind_eq_ok_iff.mp h
  obtain ⟨g₁, hfirst, rfl⟩ := within_eq_ok_iff.mp hstep₁
  obtain ⟨_, _, hstep₂, h⟩ := bind_eq_ok_iff.mp h
  obtain ⟨g₂, hsecond, rfl⟩ := within_eq_ok_iff.mp hstep₂
  obtain ⟨channel, _, hstep₃, h⟩ := bind_eq_ok_iff.mp h
  obtain ⟨g₃, hchannel, rfl⟩ := within_eq_ok_iff.mp hstep₃
  cases h
  have hdeclared := declarePort_eq_ok hfirst
  have hdeclared' := declarePort_eq_ok hsecond
  have hg₁ := hdeclared.changes.wellFormed hg
  have hg₂ := hdeclared'.changes.wellFormed hg₁
  obtain ⟨hsource, htarget, -, rfl⟩ := Graph.addChannel_eq_ok hchannel
  obtain ⟨p, hp, hrate⟩ := hdeclared.exists_port hg
  obtain ⟨q, hq, hrate'⟩ := hdeclared'.exists_port hg₁
  have hp₂ := hp.lasts hdeclared'.changes hdeclared'.frame.1
  obtain rfl := hp₂.unique hg₂ (names_of_endpoint hg₂ hsource)
  obtain rfl := hq.unique hg₂ (names_of_endpoint hg₂ htarget)
  refine ⟨?_, hdeclared'.frame.1.trans hdeclared.frame.1,
    List.mem_append_right _ List.mem_cons_self, ?_, ?_⟩
  · exact hdeclared.changes.trans (Graph.addChannel_changes.of_ok hdeclared'.changes hchannel)
  · exact ⟨place, hplace, ⟨hp₂.mem, hp₂.exists_actor, hp₂.name_eq⟩, fun given hgiven =>
      hdeclared'.changes.rateText?_eq (hrate given hgiven)⟩
  · exact ⟨place', hplace', ⟨hq.mem, hq.exists_actor, hq.name_eq⟩, hrate'⟩

theorem connect_eq_error
    (h : connect source target sourceRate targetRate initialTokens app = .error e next) :
    next.graph.channels = app.graph.channels ∧
      (IsReference source ∧ IsReference target ∧ e.isStructural = true ∨
        ∃ text ∈ [source, target], ¬ IsReference text ∧ e = .malformedEndpoint text) := by
  obtain hread | ⟨place, _, hread, h⟩ := bind_eq_error_iff.mp h
  · obtain ⟨hplace, rfl⟩ := lift_eq_error_iff.mp hread
    exact ⟨rfl, .inr ⟨source, by simp, not_isReference_of_splitEndpoint hplace,
      splitEndpoint_eq_error hplace⟩⟩
  obtain ⟨hplace, rfl⟩ := lift_eq_ok_iff.mp hread
  obtain hread' | ⟨place', _, hread', h⟩ := bind_eq_error_iff.mp h
  · obtain ⟨hplace', rfl⟩ := lift_eq_error_iff.mp hread'
    exact ⟨rfl, .inr ⟨target, by simp, not_isReference_of_splitEndpoint hplace',
      splitEndpoint_eq_error hplace'⟩⟩
  obtain ⟨hplace', rfl⟩ := lift_eq_ok_iff.mp hread'
  -- What fails from here on is up to the graph.
  suffices hgraph : next.graph.channels = app.graph.channels ∧ e.isStructural = true from
    ⟨hgraph.1, .inl ⟨isReference_of_splitEndpoint hplace, isReference_of_splitEndpoint hplace',
      hgraph.2⟩⟩
  obtain hstep₁ | ⟨_, _, hstep₁, h⟩ := bind_eq_error_iff.mp h
  · obtain ⟨g₁, hfirst, rfl⟩ := within_eq_error_iff.mp hstep₁
    obtain ⟨rfl, hstructural⟩ := declarePort_eq_error hfirst
    exact ⟨rfl, hstructural⟩
  obtain ⟨g₁, hfirst, rfl⟩ := within_eq_ok_iff.mp hstep₁
  have hchannels := (declarePort_eq_ok hfirst).frame.2
  obtain hstep₂ | ⟨_, _, hstep₂, h⟩ := bind_eq_error_iff.mp h
  · obtain ⟨g₂, hsecond, rfl⟩ := within_eq_error_iff.mp hstep₂
    obtain ⟨rfl, hstructural⟩ := declarePort_eq_error hsecond
    exact ⟨hchannels, hstructural⟩
  obtain ⟨g₂, hsecond, rfl⟩ := within_eq_ok_iff.mp hstep₂
  have hchannels' := (declarePort_eq_ok hsecond).frame.2
  obtain hstep₃ | ⟨_, _, -, h⟩ := bind_eq_error_iff.mp h
  · obtain ⟨g₃, hchannel, rfl⟩ := within_eq_error_iff.mp hstep₃
    obtain ⟨hsame, hstructural⟩ := addChannel_eq_error hchannel
    exact ⟨hsame.trans (hchannels'.trans hchannels), hstructural⟩
  · cases h

/-- Two ports are not connected while one of them has another rate than the one that is given. -/
theorem connect_of_conflicts (hg : app.graph.WellFormed)
    (h : Conflicts app.graph source sourceRate ∨ Conflicts app.graph target targetRate) :
    ∃ e next, connect source target sourceRate targetRate initialTokens app = .error e next := by
  cases hconnect : connect source target sourceRate targetRate initialTokens app with
  | error e next => exact ⟨e, next, rfl⟩
  | ok c next =>
    obtain ⟨hchanges, hactors, -, hsource, htarget⟩ := connect_eq_ok hg hconnect
    have hnext := hchanges.wellFormed hg
    exfalso
    obtain h | h := h
    · exact h.not_holds hnext hchanges hactors hsource
    · exact h.not_holds hnext hchanges hactors htarget

end Connections

end Application

end Dataflow
