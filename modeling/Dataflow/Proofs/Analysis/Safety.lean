import Dataflow.Proofs.Analysis.Preparation
import Dataflow.Proofs.Monomial.Divisibility
import Dataflow.Proofs.Protocol.Safety

namespace Dataflow

open Dataflow.Action Text

namespace Run

/-- An actor uses a parameter, and its count is no multiple of that of the period actor. -/
def Misuses (run : Run) (table : Repetitions) (parameter : String) (user : Actor) : Prop :=
  run.graph.uses table parameter user = true ∧ ∃ source,
    run.protocol.source? parameter = some source ∧
    ¬ ∃ factor, (table.count user == table.count source * factor) = true

/-- A misuse is the first one: of the least parameter that is misused, by the first actor that
misuses it. -/
structure IsFirst (run : Run) (table : Repetitions) (misuse : Misuse) : Prop where
  modified : ∃ m ∈ run.graph.modifiers, m.parameter = misuse.parameter
  misuses : run.Misuses table misuse.parameter misuse.user
  least : ∀ m ∈ run.graph.modifiers, ∀ user ∈ run.graph.actors,
    run.Misuses table m.parameter user → textLE misuse.parameter m.parameter = true
  first : ∃ before after, run.graph.actors = before ++ misuse.user :: after ∧
    ∀ user ∈ before, ¬ run.Misuses table misuse.parameter user

/-- A misuse has the two counts, and its user neither is the period actor of the parameter nor feeds
or sets it. -/
structure Tells (run : Run) (table : Repetitions) (misuse : Misuse) (source : Actor) : Prop where
  source_eq : run.protocol.source? misuse.parameter = some source
  userCount_eq : table.get misuse.user = .ok misuse.userCount
  sourceCount_eq : table.get source = .ok misuse.sourceCount
  ne_source : misuse.user.id ≠ source.id
  not_feeder : ∀ feeder ∈ run.protocol.feeders.lookup source.id, misuse.user.id ≠ feeder.id
  not_setter : misuse.parameter ∉ run.protocol.modifiedBy misuse.user

variable {origin : Graph} {table : Repetitions} {run : Run}

theorem IsFirst.user_mem {misuse : Misuse} (h : run.IsFirst table misuse) :
    misuse.user ∈ run.graph.actors := by
  obtain ⟨before, after, hactors, -⟩ := h.first
  rw [hactors]
  exact List.mem_append_right _ List.mem_cons_self

/-- The count of an actor that feeds a period actor is a multiple of that of the period actor. -/
theorem divides_of_feeds {g : Graph} (hsolved : Balance.Solved g table)
    {feeder source : Actor} {parameter : String} (h : Feeds g feeder parameter source) :
    (table.count source).divides (table.count feeder) = true := by
  obtain ⟨c, hc, rfl, rfl, hrate⟩ := h.exists_channel
  obtain ⟨produced, consumed, hproduced, hconsumed, heq⟩ := hsolved.balances c hc
  obtain ⟨one, hreadOne, hone⟩ := Graph.unitRate_of_text hrate
  obtain rfl : produced = one := Except.ok.inj (hproduced.symm.trans hreadOne)
  refine Monomial.divides_iff.mpr fun key => ?_
  have hpower := Monomial.beq_iff.mp heq key
  have hzero := Monomial.isOne_iff.mp hone key
  rw [Monomial.power_mul, Monomial.power_mul] at hpower
  omega

theorem misuses_iff {parameter : String} {user source : Actor}
    (hsource : run.protocol.source? parameter = some source) :
    run.Misuses table parameter user ↔ run.graph.uses table parameter user = true ∧
      (table.count source).divides (table.count user) = false := by
  simp [Misuses, hsource, ← Monomial.divides_iff_exists]

namespace Prepared

variable (h : run.Prepared origin table)
include h

theorem get_source {parameter : String} {source : Actor}
    (hsource : run.protocol.source? parameter = some source) :
    source ∈ run.graph.actors ∧ table.get source = .ok (table.count source) := by
  obtain ⟨feeder, -, hfeeds⟩ := h.feeds hsource
  exact ⟨hfeeds.source_mem, h.solved.get_eq source hfeeds.source_mem⟩

/-- Every parameter that is set in the graph has a period actor, which has a count. -/
theorem exists_get_source {parameter : String}
    (hparameter : parameter ∈ run.protocol.modifiedParameters) :
    ∃ source, run.protocol.source? parameter = some source ∧
      table.get source = .ok (table.count source) := by
  rw [h.keys_eq] at hparameter
  obtain ⟨source, hsource⟩ := h.exists_source_iff.mpr (List.mem_map.mp hparameter)
  exact ⟨source, hsource, (h.get_source hsource).2⟩

private theorem misuse?_eq : run.protocol.misuse? table =
    .ok ((sortTexts run.protocol.modifiedParameters).findSome? (run.protocol.misuseFor table)) :=
  Protocol.misuseOf?_eq (fun _ hparameter => h.exists_get_source (mem_sortTexts.mp hparameter))
    fun _ _ user huser => h.solved.get_eq user (h.mem_usersOf_iff.mp huser).1

private theorem misuseFor_eq_none_iff {m : Modifier} (hm : m ∈ run.graph.modifiers) :
    run.protocol.misuseFor table m.parameter = none ↔
      ∀ user ∈ run.graph.actors, ¬ run.Misuses table m.parameter user := by
  obtain ⟨source, hsource⟩ := h.exists_source_iff.mpr ⟨m, hm, rfl⟩
  rw [Protocol.misuseFor_eq_none_iff, hsource]
  simp [h.mem_usersOf_iff, misuses_iff hsource]

/-- The users that a misuse comes before are those of some first actors. -/
theorem exists_actors_before {parameter : String} {user : Actor} {before after : List Actor}
    (husers : run.protocol.usersOf parameter = before ++ user :: after) :
    ∃ earlier later, run.graph.actors = earlier ++ user :: later ∧
      ∀ other ∈ earlier, run.graph.uses table parameter other = true → other ∈ before := by
  rw [h.usersOf_eq] at husers
  obtain ⟨earlier, rest, hactors, rfl, hrest⟩ := List.filter_eq_append_iff.mp husers
  obtain ⟨skipped, later, rfl, hskipped, -, -⟩ := List.filter_eq_cons_iff.mp hrest
  refine ⟨earlier ++ skipped, later, by rw [hactors, List.append_assoc],
    fun other hother huses => ?_⟩
  obtain hother | hother := List.mem_append.mp hother
  · exact List.mem_filter.mpr ⟨hother, huses⟩
  · exact absurd huses (hskipped other hother)

/-- Neither the period actor of a parameter nor the actors that feed it misuse the parameter. -/
theorem tells {parameter : String} {user source : Actor}
    (hsource : run.protocol.source? parameter = some source) (huser : user ∈ run.graph.actors)
    (hdivides : (table.count source).divides (table.count user) = false) :
    run.Tells table ⟨parameter, user, table.count user, table.count source⟩ source := by
  obtain ⟨hmem, hget⟩ := h.get_source hsource
  have hfeeder : ∀ feeder ∈ run.protocol.feeders.lookup source.id, user.id ≠ feeder.id := by
    intro feeder hlookup hid
    obtain ⟨found, hfound, hfeeds⟩ := h.feeds hsource
    obtain rfl : found = feeder := Option.some.inj (hfound.symm.trans hlookup)
    obtain rfl := h.grown.1.actor_eq_of_id huser (hfeeds.feeder_mem h.grown.1) hid
    rw [divides_of_feeds h.solved hfeeds] at hdivides
    cases hdivides
  refine ⟨hsource, h.solved.get_eq user huser, hget, fun hid => ?_, hfeeder, fun hset => ?_⟩
  · obtain rfl := h.grown.1.actor_eq_of_id huser hmem hid
    rw [Monomial.divides_iff.mpr fun _ => Nat.le_refl _] at hdivides
    cases hdivides
  · obtain ⟨feeder, hlookup, hid⟩ := h.feeder_of_mem_modifiedBy hset hsource
    exact hfeeder feeder hlookup hid.symm

/-- The first misuse of a parameter is by the first actor that misuses it. -/
theorem first_of_misuseFor {parameter : String} {misuse : Misuse}
    (hmisuse : run.protocol.misuseFor table parameter = some misuse) :
    misuse.parameter = parameter ∧ run.Misuses table parameter misuse.user ∧
      (∃ before after, run.graph.actors = before ++ misuse.user :: after ∧
        ∀ user ∈ before, ¬ run.Misuses table parameter user) ∧
      ∃ source, run.Tells table misuse source := by
  obtain ⟨source, user, before, after, hsource, husers, hbefore, hdivides, rfl⟩ :=
    Protocol.misuseFor_eq_some_iff.mp hmisuse
  have huser : user ∈ run.protocol.usersOf parameter := by
    rw [husers]
    exact List.mem_append_right _ List.mem_cons_self
  obtain ⟨hmem, huses⟩ := h.mem_usersOf_iff.mp huser
  obtain ⟨earlier, later, hactors, hearlier⟩ := h.exists_actors_before husers
  refine ⟨rfl, (misuses_iff hsource).mpr ⟨huses, hdivides⟩, ⟨earlier, later, hactors, ?_⟩, source,
    h.tells hsource hmem hdivides⟩
  intro other hother hmisuses
  obtain ⟨huses, hdivides⟩ := (misuses_iff hsource).mp hmisuses
  rw [hbefore other (hearlier other hother huses)] at hdivides
  cases hdivides

/-- No misuse is found when there is none. -/
theorem findSome?_eq_none_iff :
    (sortTexts run.protocol.modifiedParameters).findSome? (run.protocol.misuseFor table) = none ↔
      ¬ ∃ m ∈ run.graph.modifiers, ∃ user ∈ run.graph.actors,
        run.Misuses table m.parameter user := by
  simp only [List.findSome?_eq_none_iff, mem_sortTexts, h.keys_eq, List.forall_mem_map, not_exists,
    not_and]
  exact forall₂_congr fun m hm => h.misuseFor_eq_none_iff hm

theorem isFirst_of_findSome? {misuse : Misuse}
    (hmisuse : (sortTexts run.protocol.modifiedParameters).findSome?
      (run.protocol.misuseFor table) = some misuse) :
    run.IsFirst table misuse ∧ ∃ source, run.Tells table misuse source := by
  obtain ⟨before, parameter, after, hsorted, hfound, hbefore⟩ :=
    List.findSome?_eq_some_iff.mp hmisuse
  obtain ⟨rfl, hmisuses, hfirst, htells⟩ := h.first_of_misuseFor hfound
  have hmem : ∀ q, q ∈ before ++ misuse.parameter :: after ↔
      ∃ m ∈ run.graph.modifiers, m.parameter = q := by
    intro q
    rw [← hsorted, mem_sortTexts, h.keys_eq, List.mem_map]
  refine ⟨⟨(hmem _).mp (by simp), hmisuses, ?_, hfirst⟩, htells⟩
  intro m hm user huser hmisuses
  have hascending := pairwise_sortTexts run.protocol.modifiedParameters
  rw [hsorted, List.pairwise_append, List.pairwise_cons] at hascending
  -- A parameter before the one that is named is not misused, one after it is not less.
  obtain hq | hq := List.mem_append.mp ((hmem m.parameter).mpr ⟨m, hm, rfl⟩)
  · exact absurd hmisuses ((h.misuseFor_eq_none_iff hm).mp (hbefore _ hq) user huser)
  · obtain hq | hq := List.mem_cons.mp hq
    · rw [hq]
      exact textLE_refl _
    · exact hascending.2.1.1 _ hq

/-- The report of a misuse of a prepared run can be written, since its counts were written
before. -/
theorem report_eq_ok {misuse : Misuse} {source : Actor} (htells : run.Tells table misuse source)
    (huser : misuse.user ∈ run.graph.actors) : ∃ text, misuse.report = .ok text := by
  obtain ⟨hmem, hget⟩ := h.get_source htells.source_eq
  obtain ⟨userText, huserText⟩ := h.written _ huser
  obtain ⟨sourceText, hsourceText⟩ := h.written _ hmem
  rw [Repetitions.count_of_get_eq_ok htells.userCount_eq] at huserText
  rw [Repetitions.count_of_get_eq_ok htells.sourceCount_eq] at hsourceText
  simp [Misuse.report, huserText, hsourceText, bind, Except.bind, pure, Except.pure]

/-- `checkSafety` returns the first misuse if there is one, and writes into the journal. -/
theorem checkSafety_cases :
    ((sortTexts run.protocol.modifiedParameters).findSome? (run.protocol.misuseFor table) = none ∧
        ∃ journal, Workspace.checkSafety table run.toWorkspace =
          .ok (.success ()) { run.toWorkspace with journal }) ∨
      ∃ misuse, (sortTexts run.protocol.modifiedParameters).findSome?
          (run.protocol.misuseFor table) = some misuse ∧
        ∃ journal, Workspace.checkSafety table run.toWorkspace =
          .ok (.violated misuse) { run.toWorkspace with journal } := by
  cases hfound : (sortTexts run.protocol.modifiedParameters).findSome?
      (run.protocol.misuseFor table) with
  | none =>
    exact .inl ⟨rfl,
      Workspace.checkSafety_of_none (h.misuse?_eq.trans (congrArg Except.ok hfound))⟩
  | some misuse =>
    obtain ⟨hfirst, source, htells⟩ := h.isFirst_of_findSome? hfound
    obtain ⟨text, hreport⟩ := h.report_eq_ok htells hfirst.user_mem
    exact .inr ⟨misuse, rfl,
      Workspace.checkSafety_of_some (h.misuse?_eq.trans (congrArg Except.ok hfound)) hreport⟩

end Prepared

end Run

namespace Safety

/-- Whenever an analysis arrives at the safety check with a repetition table, `checkSafety` returns
a verdict. The verdict is a violation if and only if an actor of the graph, period actors included,
uses a parameter that has a modifier while its count is no multiple of the count of the parameter's
period actor. The violation is the first one, and its user is neither the period actor nor an actor
that feeds it or sets the parameter. -/
theorem checkSafety_decides {g : Graph} (hg : g.Reachable) {config : Config} {run : Run}
    {table : Repetitions} (hrun : Analyzer.arrive g config .safety = some run)
    (htable : run.table = some table) :
    ∃ verdict w, Workspace.checkSafety table run.toWorkspace = .ok verdict w ∧
      (verdict.isSuccess = false ↔ ∃ m ∈ run.graph.modifiers, ∃ user ∈ run.graph.actors,
        run.Misuses table m.parameter user) ∧
      ∀ misuse, verdict = .violated misuse →
        run.IsFirst table misuse ∧ ∃ source, run.Tells table misuse source := by
  have h := Analyzer.prepared_of_arrive hg.wellFormed hrun htable
  obtain ⟨hnone, journal, hcheck⟩ | ⟨misuse, hfound, journal, hcheck⟩ := h.checkSafety_cases
  · refine ⟨.success (), _, hcheck, ?_, fun _ hverdict => by cases hverdict⟩
    simpa [Verdict.isSuccess] using h.findSome?_eq_none_iff.mp hnone
  · have hfirst := h.isFirst_of_findSome? hfound
    obtain ⟨m, hm, hparameter⟩ := hfirst.1.modified
    refine ⟨.violated misuse, _, hcheck, ⟨fun _ => ?_, fun _ => rfl⟩, ?_⟩
    · exact ⟨m, hm, misuse.user, hfirst.1.user_mem, hparameter ▸ hfirst.1.misuses⟩
    · rintro _ ⟨⟩
      exact hfirst

/-- Whether an analysis arrives at the safety check with a table that fails it. -/
def isUnsafe (g : Graph) (config : Config) : Bool :=
  (Analyzer.arrive g config .safety).any fun run => run.table.any fun table =>
    match Workspace.checkSafety table run.toWorkspace with
    | .ok verdict _ => !verdict.isSuccess
    | .error _ _ => false

/-- A producer that sets `p` at every second firing, and a consumer that takes `p` tokens. -/
def halved : Graph :=
  Graph.performAll (.empty none)
    [ .addActor "a" "A" 0 false, .addActor "b" "B" 0 false, .addPort "A" "out" .output (some "1"),
      .addPort "B" "in" .input (some "p"), .addChannel ("a", "out") ("b", "in") {},
      .addModifier { type := "A", parameter := "p", kind := "int", period := "2" } ]

theorem checkSafety_decides_halved :
    ∃ run table, Analyzer.arrive halved {} .safety = some run ∧ run.table = some table ∧
      ∃ misuse w, Workspace.checkSafety table run.toWorkspace = .ok (.violated misuse) w ∧
        run.IsFirst table misuse ∧ ∃ source, run.Tells table misuse source := by
  have hunsafe : isUnsafe halved {} = true := by decide +kernel
  have hg : halved.Reachable := (Graph.Reachable.empty none).performAll _
  unfold isUnsafe at hunsafe
  obtain ⟨run, hrun⟩ := Option.isSome_iff_exists.mp (Option.isSome_of_any hunsafe)
  rw [hrun, Option.any_some] at hunsafe
  obtain ⟨table, htable⟩ := Option.isSome_iff_exists.mp (Option.isSome_of_any hunsafe)
  rw [htable, Option.any_some] at hunsafe
  obtain ⟨verdict, w, hcheck, -, hfirst⟩ := checkSafety_decides hg hrun htable
  rw [hcheck] at hunsafe
  cases verdict with
  | success _ => cases hunsafe
  | violated misuse => exact ⟨run, table, hrun, htable, misuse, w, hcheck, hfirst misuse rfl⟩

end Safety

end Dataflow
