import Dataflow.Proofs.Balance.Soundness
import Dataflow.Proofs.Liveness.Acyclic
import Dataflow.Proofs.Schedule.Firing

namespace Dataflow

namespace Graph

/-- Actors in an order in which every channel leads on. -/
def Ordered (g : Graph) : List Actor → Prop
  | [] => True
  | a :: later =>
    (∀ c ∈ g.channels, c.source.actor = a → c.target.actor ∈ later) ∧ Ordered g later

variable {g : Graph} {v : String → Nat} {later : List Actor}

private theorem Ordered.target_mem (h : g.Ordered later) {c : Channel} (hc : c ∈ g.channels)
    (hsource : c.source.actor ∈ later) : c.target.actor ∈ later := by
  induction later with
  | nil => simp at hsource
  | cons a later ih =>
    obtain hsource | hsource := List.mem_cons.mp hsource
    · exact List.mem_cons_of_mem _ (h.1 c hc hsource)
    · exact List.mem_cons_of_mem _ (ih h.2 hsource)

private theorem count_flatMap_replicate {order : List Actor} (hnodup : order.Nodup) {a : Actor}
    (ha : a ∈ order) (times : Actor → Nat) :
    (order.flatMap fun b => List.replicate (times b) b).count a = times a := by
  induction order with
  | nil => simp at ha
  | cons b order ih =>
    obtain ⟨hnew, hnodup⟩ := List.nodup_cons.mp hnodup
    rw [List.flatMap_cons, List.count_append, List.count_replicate]
    obtain rfl | ha := List.mem_cons.mp ha
    · have hlater : (order.flatMap fun b => List.replicate (times b) b).count a = 0 := by
        rw [List.count_eq_zero]
        intro hmem
        obtain ⟨b, hb, hmem⟩ := List.mem_flatMap.mp hmem
        exact hnew (List.eq_of_mem_replicate hmem ▸ hb)
      rw [hlater, beq_self_eq_true, if_pos rfl, Nat.add_zero]
    · have hne : b ≠ a := fun heq => hnew (heq ▸ ha)
      rw [ih hnodup ha, if_neg (by simpa using hne), Nat.zero_add]

/-- The tokens when all actors but those that are still to come have had their turn. -/
def InTurn (traffic : Traffic g v) (times : Actor → Nat) (later : List Actor)
    (tokens : Marking) : Prop :=
  ∀ c ∈ g.channels, tokens c = c.initialTokens +
    if c.source.actor ∉ later ∧ c.target.actor ∈ later then
      times c.source.actor * traffic.produced c
    else 0

private theorem exists_runs_flatMap (traffic : Traffic g v) {times : Actor → Nat}
    (hbalanced : ∀ c ∈ g.channels, times c.source.actor * traffic.produced c =
      times c.target.actor * traffic.consumed c)
    (hordered : g.Ordered later) (hnodup : later.Nodup) {tokens : Marking}
    (htokens : InTurn traffic times later tokens) :
    ∃ after, g.Runs v tokens (later.flatMap fun a => List.replicate (times a) a) after ∧
      ∀ c ∈ g.channels, after c = c.initialTokens := by
  induction later generalizing tokens with
  | nil => exact ⟨tokens, .done tokens, fun c hc => by simpa using htokens c hc⟩
  | cons a later ih =>
    obtain ⟨houtputs, hlater⟩ := hordered
    obtain ⟨hnew, hnodup⟩ := List.nodup_cons.mp hnodup
    have hself : ∀ c ∈ g.channels, c.source.actor = a → c.target.actor ≠ a := by
      intro c hc hsource htarget
      exact hnew (htarget ▸ houtputs c hc hsource)
    -- Whatever feeds the actor has had its turn: a channel from a later actor would lead on.
    have hinputs : ∀ c ∈ g.channels, c.target.actor = a →
        c.source.actor ∉ a :: later ∧
          tokens c = c.initialTokens + times a * traffic.consumed c := by
      intro c hc htarget
      have hsource : c.source.actor ∉ a :: later := by
        intro hsource
        obtain hsource | hsource := List.mem_cons.mp hsource
        · exact hself c hc hsource htarget
        · exact hnew (htarget ▸ hlater.target_mem hc hsource)
      have heq := htokens c hc
      rw [if_pos ⟨hsource, htarget ▸ List.mem_cons_self⟩, hbalanced c hc, htarget] at heq
      exact ⟨hsource, heq⟩
    obtain ⟨between, hturn, hbetween⟩ := traffic.exists_runs_replicate hself (times a) tokens <| by
      intro c hc htarget
      rw [(hinputs c hc htarget).2]
      exact Nat.le_add_left _ _
    have hnext : InTurn traffic times later between := by
      intro c hc
      have hstep := hbetween c hc
      by_cases htarget : c.target.actor = a
      · obtain ⟨hsource, heq⟩ := hinputs c hc htarget
        have hsource : c.source.actor ≠ a := fun h => hsource (h ▸ List.mem_cons_self)
        rw [if_pos htarget, if_neg hsource, heq] at hstep
        rw [if_neg fun h => hnew (htarget ▸ h.2)]
        omega
      · have heq := htokens c hc
        rw [if_neg htarget, Nat.add_zero] at hstep
        by_cases hsource : c.source.actor = a
        · rw [if_neg fun h => h.1 (hsource ▸ List.mem_cons_self), Nat.add_zero] at heq
          rw [if_pos ⟨fun h => hnew (hsource ▸ h), houtputs c hc hsource⟩, hstep, heq,
            if_pos hsource, hsource]
        · rw [hstep, if_neg hsource, Nat.add_zero, heq]
          simp [hsource, htarget]
    obtain ⟨after, hruns, hafter⟩ := ih hlater hnodup hnext
    exact ⟨after, hturn.append hruns, hafter⟩

end Graph

namespace Liveness

variable {g : Graph} {finished : List Handle}

private theorem Settled.ordered (hg : g.WellFormed) {order : List Actor} (hmem : order ⊆ g.actors)
    (h : Settled g (order.map (·.id))) : g.Ordered order := by
  induction order with
  | nil => trivial
  | cons a later ih =>
    obtain ⟨hactor, hlater⟩ := List.cons_subset.mp hmem
    refine ⟨fun c hc hsource => ?_, ih hlater h.2⟩
    obtain ⟨b, hb, hid⟩ := List.mem_map.mp (h.1 c hc (congrArg Actor.id hsource))
    have htarget := (hg.joins c hc .input).actor_mem
    exact hg.actor_eq_of_id (hlater hb) htarget hid ▸ hb

private theorem check_eq_success (hg : g.WellFormed) (h : check g = .success finished) :
    Coloured g ⟨[], [], finished⟩ := by
  obtain ⟨s, order, hs, hstep, hcheck⟩ | ⟨s, frames, link, -, -, hcheck⟩ := check_cases g
  · rw [h] at hcheck
    cases hcheck
    have hcoloured := hs.coloured hg
    rwa [State.step_eq_live hstep] at hcoloured
  · rw [h] at hcheck
    cases hcheck

/-- The order in which the actors were finished, the last one first. -/
theorem exists_ordered (hg : g.WellFormed) (h : check g = .success finished) :
    ∃ order, order.Perm g.actors ∧ g.Ordered order := by
  have hcoloured := check_eq_success hg h
  have hperm : finished.Perm (g.actors.map (·.id)) := by
    simpa [Search.waiting] using hcoloured.colours
  have hcomp := congrFun (congrFun (List.eq_map_comp_perm fun a : Actor => a.id) finished) g.actors
  obtain ⟨order, rfl, horder⟩ := hcomp.mpr hperm
  exact ⟨order, horder, hcoloured.settled.ordered hg horder.subset⟩

private theorem exists_ordered_of_checkLiveness {w w' : Workspace} (hg : w.graph.WellFormed)
    (h : w.checkLiveness = .ok (.success ()) w') :
    ∃ order, order.Perm w.graph.actors ∧ w.graph.Ordered order := by
  rw [checkLiveness_eq] at h
  cases hcheck : check w.graph with
  | success finished => exact exists_ordered hg hcheck
  | violated cycle =>
    rw [hcheck] at h
    cases h

end Liveness

namespace Balance

variable {g : Graph} {v : String → Nat} {table : Repetitions}

/-- With the counts of a table, every channel is given as many tokens as are taken from it. -/
theorem Solved.exists_traffic (h : Solved g table) (v : String → Nat) :
    ∃ traffic : Graph.Traffic g v, ∀ c ∈ g.channels,
      (table.count c.source.actor).value v * traffic.produced c =
        (table.count c.target.actor).value v * traffic.consumed c := by
  have hrates : ∀ c, ∃ produced consumed, c ∈ g.channels →
      g.tokenRate v c.source.port = .ok produced ∧ g.tokenRate v c.target.port = .ok consumed ∧
      (table.count c.source.actor).value v * produced =
        (table.count c.target.actor).value v * consumed := by
    intro c
    by_cases hc : c ∈ g.channels
    · obtain ⟨produced, consumed, hproduced, hconsumed, heq⟩ := h.balances c hc
      have hvalue := Monomial.value_congr (v := v) heq
      rw [Monomial.value_mul, Monomial.value_mul] at hvalue
      refine ⟨produced.value v, consumed.value v, fun _ => ⟨?_, ?_, hvalue⟩⟩
      · simp only [Graph.tokenRate, hproduced]
        rfl
      · simp only [Graph.tokenRate, hconsumed]
        rfl
    · exact ⟨0, 0, fun hmem => absurd hmem hc⟩
  choose produced consumed hrates using hrates
  exact ⟨⟨produced, consumed, fun c hc => (hrates c hc).1, fun c hc => (hrates c hc).2.1⟩,
    fun c hc => (hrates c hc).2.2⟩

end Balance

namespace Schedule

/-- If `Workspace.solve` returns a table and `checkLiveness` succeeds, the graph can run for a
period, whatever the values of the parameters: in some order of firings every actor fires as often
as the table says, each firing finds the tokens that it takes, and every channel has its initial
tokens again at the end. -/
theorem exists_period {w w' l l' : Workspace} {start : Option Actor} {table : Repetitions}
    (hw : w.rates.UsedWith w.graph) (hstart : ∀ a ∈ start, a ∈ w.graph.actors)
    (hsolve : Workspace.solve start w = .ok (.success table) w') (hgraph : l.graph = w.graph)
    (hlive : l.checkLiveness = .ok (.success ()) l') (v : String → Nat) :
    ∃ firings after, w.graph.Runs v (fun c => c.initialTokens) firings after ∧
      (∀ a ∈ firings, a ∈ w.graph.actors) ∧
      (∀ a ∈ w.graph.actors, ∃ count, table.get a = .ok count ∧
        firings.count a = count.value v) ∧
      ∀ c ∈ w.graph.channels, after c = c.initialTokens := by
  have hg := hw.reachable.wellFormed
  have hsolved := Balance.solve_solved hw hstart hsolve
  obtain ⟨order, hperm, hordered⟩ :=
    Liveness.exists_ordered_of_checkLiveness (hgraph ▸ hg) hlive
  rw [hgraph] at hperm hordered
  have hnodup : order.Nodup := hperm.nodup_iff.mpr hg.nodup_actor_ids.of_map
  obtain ⟨traffic, hbalanced⟩ := hsolved.exists_traffic v
  let times : Actor → Nat := fun a => (table.count a).value v
  have hinitial : Graph.InTurn traffic times order fun c => c.initialTokens := by
    intro c hc
    have hsource := hperm.mem_iff.mpr (hg.joins c hc .output).actor_mem
    rw [if_neg fun h => h.1 hsource, Nat.add_zero]
  obtain ⟨after, hruns, hafter⟩ :=
    Graph.exists_runs_flatMap traffic hbalanced hordered hnodup hinitial
  refine ⟨_, after, hruns, fun a ha => ?_, fun a ha => ?_, hafter⟩
  · obtain ⟨b, hb, ha⟩ := List.mem_flatMap.mp ha
    rw [List.eq_of_mem_replicate ha]
    exact hperm.subset hb
  · refine ⟨_, hsolved.get_eq a ha, ?_⟩
    exact Graph.count_flatMap_replicate hnodup (hperm.mem_iff.mpr ha) times

/-- Four actors, two of them between the others, with tokens on one of the two ways. -/
def diamond : Graph :=
  Graph.performAll (.empty none)
    [ .addActor "a" "A" 0 false, .addActor "b" "B" 0 false, .addActor "c" "C" 0 false,
      .addActor "d" "D" 0 false, .addPort "A" "left" .output (some "2*x"),
      .addPort "A" "right" .output (some "x"), .addPort "B" "in" .input (some "3"),
      .addPort "B" "out" .output (some "3"), .addPort "C" "in" .input (some "x*x"),
      .addPort "C" "out" .output (some "2*x*x"), .addPort "D" "left" .input (some "1"),
      .addPort "D" "right" .input (some "1"), .addChannel ("a", "left") ("b", "in") {},
      .addChannel ("a", "right") ("c", "in") { initialTokens := 5 },
      .addChannel ("b", "out") ("d", "left") {}, .addChannel ("c", "out") ("d", "right") {} ]

theorem exists_period_diamond :
    ∃ table w' l', Workspace.solve none ⟨diamond, .empty, .empty, []⟩ = .ok (.success table) w' ∧
      Workspace.checkLiveness ⟨diamond, .empty, .empty, []⟩ = .ok (.success ()) l' ∧
      ∀ v, ∃ firings after, diamond.Runs v (fun c => c.initialTokens) firings after ∧
        (∀ a ∈ firings, a ∈ diamond.actors) ∧
        (∀ a ∈ diamond.actors, ∃ count, table.get a = .ok count ∧
          firings.count a = count.value v) ∧
        ∀ c ∈ diamond.channels, after c = c.initialTokens := by
  have hused : RateCache.empty.UsedWith diamond := (RateCache.UsedWith.start none).performAll _
  have hsuccess : (Workspace.verdict? ⟨diamond, .empty, .empty, []⟩ none).any (·.isSuccess) =
      true := by
    decide +kernel
  have hacyclic : (Liveness.check diamond).isSuccess = true := by decide +kernel
  obtain ⟨verdict, w', hrun, hverdict⟩ := Workspace.exists_of_verdict? hsuccess
  have hlive := Liveness.checkLiveness_eq ⟨diamond, .empty, .empty, []⟩
  cases hcheck : Liveness.check diamond with
  | violated _ =>
    rw [hcheck] at hacyclic
    cases hacyclic
  | success finished =>
    rw [hcheck] at hlive
    cases verdict with
    | violated _ => cases hverdict
    | success table =>
      exact ⟨table, w', _, hrun, hlive,
        exists_period hused (by simp) hrun (l := ⟨diamond, .empty, .empty, []⟩) rfl hlive⟩

end Schedule

end Dataflow
