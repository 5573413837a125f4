import Dataflow.Proofs.Graph.Preservation
import Dataflow.Proofs.Matching

namespace Dataflow.Graph

open Dataflow.Action

/-- The graph `h` is the graph `g`, except that it may have forgotten types without actors. -/
inductive Copied (g : Graph) : Graph → Prop
  | intro (types : List String) (known : ∀ type ∈ types, type ∈ g.types)
    (forgotten : ∀ type ∈ g.types, type ∈ types ∨ g.hasType type = false) :
    Copied g { g with types }

variable {g h : Graph} {type name : String}

private theorem WellFormed.mem_types_of_hasType (hg : g.WellFormed) (h : g.hasType type = true) :
    type ∈ g.types := by
  obtain ⟨a, ha, htype⟩ := List.any_eq_true.mp h
  exact eq_of_beq htype ▸ hg.types_known a ha

/-- A graph that knows just the types of its actors has forgotten no others. -/
theorem WellFormed.copied_of_hasType (hg : g.WellFormed) {types : List String}
    (h : ∀ type, type ∈ types ↔ g.hasType type = true) : Copied g { g with types } := by
  refine ⟨types, fun type htype => hg.mem_types_of_hasType ((h type).mp htype), fun type _ => ?_⟩
  cases hactor : g.hasType type with
  | true => exact .inl ((h type).mpr hactor)
  | false => exact .inr rfl

/-- A copy finds all the ends of the channels, and knows the types that have an actor. -/
theorem WellFormed.exists_clone (hg : g.WellFormed) :
    ∃ copy, g.clone = .ok copy ∧ Copied g copy := by
  obtain ⟨types, hclone, htypes⟩ := hg.clone_eq
  exact ⟨_, hclone, hg.copied_of_hasType htypes⟩

private theorem Copied.refl (g : Graph) : Copied g g :=
  ⟨g.types, fun _ => id, fun _ => .inl⟩

theorem Copied.actors_eq (hcopied : Copied g h) : h.actors = g.actors := by
  cases hcopied
  rfl

private theorem Copied.nextHandle_eq (hcopied : Copied g h) : h.nextHandle = g.nextHandle := by
  cases hcopied
  rfl

section Questions

/-- A question to a graph, with the type of its answer. Only `actorsOf` is left out. -/
inductive Question : Type → Type
  | name : Question (Option String)
  | counts : Question (Nat × Nat)
  | actors : Question (List Actor)
  | hasActor (name : String) : Question Bool
  | actorNamed (name : String) : Question Actor
  | actorAt (handle : Int) : Question Actor
  | hasType (type : String) : Question Bool
  | ports : Question (List Port)
  | hasPort (type name : String) : Question Bool
  | portNamed (type name : String) : Question Port
  | portAt (handle : Int) : Question Port
  | rate (p : Port) : Question (Option String)
  | channels : Question (List Channel)
  | channelAt (handle : Int) : Question Channel
  | channelNamed (name : Option String) : Question (Option Channel)
  | channelsBetween (source target : Actor) : Question (List Channel)
  | isBound (c : Channel) : Question Bool
  | channelText (c : Channel) : Question String
  | linkOf (c : Channel) (direction : Direction) : Question Link
  | oppositeActor (c : Channel) (a : Actor) : Question Actor
  | links (a : Actor) (direction : Direction) : Question (List Link)
  | allLinks (a : Actor) : Question (List Link)
  | channelsOf (a : Actor) : Question (List Channel)
  | modifiers : Question (List Modifier)
  | modifierOf (parameter : String) : Question Modifier
  | dump : Question String

/-- What a graph answers. -/
def Question.ask {α : Type} (g : Graph) : Question α → Except Failure α
  | .name => .ok g.name
  | .counts => .ok (g.actors.length, g.channels.length)
  | .actors => .ok g.actors
  | .hasActor name => .ok (g.hasActor name)
  | .actorNamed name => g.actorNamed name
  | .actorAt handle => g.actorAt handle
  | .hasType type => .ok (g.hasType type)
  | .ports => .ok g.ports
  | .hasPort type name => .ok (g.hasPort type name)
  | .portNamed type name => g.portNamed type name
  | .portAt handle => g.portAt handle
  | .rate p => .ok (g.rateText? p)
  | .channels => .ok g.channels
  | .channelAt handle => g.channelAt handle
  | .channelNamed name => .ok (g.channelNamed? name)
  | .channelsBetween source target => .ok (g.channelsBetween source target)
  | .isBound c => .ok (g.isBound c)
  | .channelText c => .ok (g.channelText c)
  | .linkOf c direction => g.linkOf c direction
  | .oppositeActor c a => g.oppositeActor c a
  | .links a direction => .ok (g.links a direction)
  | .allLinks a => .ok (g.allLinks a)
  | .channelsOf a => .ok (g.channelsOf a)
  | .modifiers => .ok g.modifiers
  | .modifierOf parameter => g.modifierOf parameter
  | .dump => .ok g.dump

theorem Copied.ask_eq (hcopied : Copied g h) {α : Type} (q : Question α) : q.ask h = q.ask g := by
  obtain ⟨types, -, -⟩ := hcopied
  cases q <;> rfl

private theorem instances_eq_nil_iff : g.instances type = [] ↔ g.hasType type = false := by
  rw [instances, hasType, List.filter_eq_nil_iff, List.any_eq_false]

private theorem Copied.actorsOf (hcopied : Copied g h) (type : String) :
    h.actorsOf type = g.actorsOf type ∨
      g.actorsOf type = .ok [] ∧ h.actorsOf type = .error (.unknownType type) := by
  obtain ⟨types, hknown, hforgotten⟩ := hcopied
  unfold Graph.actorsOf
  simp only [List.contains_iff_mem]
  by_cases hin : type ∈ types
  · exact .inl (by rw [if_pos hin, if_pos (hknown type hin)]; rfl)
  · rw [if_neg hin]
    by_cases hg : type ∈ g.types
    · have hnone := (hforgotten type hg).resolve_left hin
      exact .inr ⟨by rw [if_pos hg, instances_eq_nil_iff.mpr hnone], rfl⟩
    · exact .inl (if_neg hg).symm

end Questions

section Operations

/-- What follows the reading of a graph and of a copy has to match whatever types were forgotten. -/
theorem matches_read {α : Type} {next : Graph → Action Graph α}
    (h : ∀ g types, Matches Copied (next g) (next { g with types })) :
    Matches Copied (get >>= next) (get >>= next) := by
  refine matches_get_bind ?_
  rintro g _ ⟨types, -, -⟩
  exact h g types

theorem matches_addActor {execTime : Int} {auto : Bool} :
    Matches Copied (addActor name type execTime auto) (addActor name type execTime auto) := by
  rintro g _ ⟨types, hknown, hforgotten⟩
  rw [addActor_eq, addActor_eq]
  -- The type of the new actor is known to both from now on; about the others nothing changes.
  refine .ite (.error _ ⟨types, hknown, hforgotten⟩) (.ok _ ⟨_, fun other hother => ?_,
    fun other hother => ?_⟩)
  · exact mem_known.mpr ((mem_known.mp hother).imp_left (hknown other))
  · by_cases heq : other = type
    · exact .inl (mem_known.mpr (.inr heq))
    · have hold : other ∈ g.types := (mem_known.mp hother).resolve_right heq
      refine (hforgotten other hold).imp (fun hin => mem_known.mpr (.inl hin)) fun hnone => ?_
      rw [hasType, List.any_append, show g.actors.any _ = false from hnone]
      simpa using Ne.symm heq

theorem matches_addPort {direction : Direction} {rate : Option String} :
    Matches Copied (addPort type name direction rate) (addPort type name direction rate) := by
  rintro g _ ⟨types, hknown, hforgotten⟩
  rw [addPort_eq, addPort_eq]
  exact .ite (.error _ ⟨types, hknown, hforgotten⟩) (.ok _ ⟨types, hknown, hforgotten⟩)

private theorem matches_setRate {p : Port} {rate : String} :
    Matches Copied (setRate p rate) (setRate p rate) := by
  rintro g _ ⟨types, hknown, hforgotten⟩
  rw [setRate_eq, setRate_eq]
  exact .ite (.error _ ⟨types, hknown, hforgotten⟩) (.ok _ ⟨types, hknown, hforgotten⟩)

private theorem matches_addModifier {m : Modifier} :
    Matches Copied (addModifier m) (addModifier m) := by
  rintro g _ ⟨types, hknown, hforgotten⟩
  rw [addModifier_eq, addModifier_eq]
  dsimp only
  cases g.modifiers.find? (·.parameter == m.parameter) with
  | some present => exact .error _ ⟨types, hknown, hforgotten⟩
  | none => exact .ok _ ⟨types, hknown, hforgotten⟩

theorem matches_addChannel {source target : String × String} {spec : ChannelSpec} :
    Matches Copied (addChannel source target spec) (addChannel source target spec) := by
  rintro g _ ⟨types, hknown, hforgotten⟩
  have hends : Graph.endpoint { g with types } = g.endpoint := rfl
  rw [addChannel_eq, addChannel_eq, hends]
  refine .ite (.error _ ⟨types, hknown, hforgotten⟩) ?_
  cases g.endpoint source .output with
  | error e => exact .error e ⟨types, hknown, hforgotten⟩
  | ok a =>
    cases g.endpoint target .input with
    | error e => exact .error e ⟨types, hknown, hforgotten⟩
    | ok b => exact .ok _ ⟨types, hknown, hforgotten⟩

theorem matches_ensurePort {direction : Direction} {rate : String} :
    Matches Copied (ensurePort type name direction rate) (ensurePort type name direction rate) := by
  refine matches_read fun g types => ?_
  exact .ite (matches_addPort.bind fun _ => matches_pure _) (matches_pure _)

private theorem matches_insertChannelBetween {source target : Actor}
    {sourceRate targetRate : String} {initialTokens tokenSize : Int} :
    Matches Copied
      (insertChannelBetween source target sourceRate targetRate initialTokens tokenSize)
      (insertChannelBetween source target sourceRate targetRate initialTokens tokenSize) := by
  refine matches_read fun g types => ?_
  exact matches_ensurePort.bind fun _ => matches_ensurePort.bind fun _ => matches_addChannel

private theorem Copied.removeActor (hcopied : Copied g h) (a : Actor) :
    Copied (g.removeActor a) (h.removeActor a) := by
  obtain ⟨types, hknown, hforgotten⟩ := hcopied
  unfold Graph.removeActor
  dsimp only
  rw [foldl_removeChannel, foldl_removeChannel]
  refine ⟨types, hknown, fun type htype => (hforgotten type htype).imp_right fun hnone => ?_⟩
  rw [hasType, List.any_eq_false] at hnone ⊢
  exact fun b hb => hnone b (List.mem_of_mem_filter hb)

/-- An operation does the same to a copy. -/
theorem matches_perform (op : Operation) : Matches Copied op.perform op.perform := by
  cases op with
  | addActor => exact matches_addActor.map _
  | addPort => exact matches_addPort.map _
  | addChannel => exact matches_addChannel.map _
  | removeActor name =>
    refine matches_read fun g types => (matches_lift (g.actorNamed name)).bind fun a => ?_
    exact (matches_modify fun _ _ hst => hst.removeActor a).bind fun _ => matches_pure _
  | setRate type name rate =>
    refine matches_read fun g types => (matches_lift (g.portNamed type name)).bind fun p => ?_
    exact matches_setRate.bind fun _ => matches_pure _
  | insertChannelBetween source target =>
    refine matches_read fun g types => (matches_lift (g.actorNamed source)).bind fun a => ?_
    refine matches_read fun g types => (matches_lift (g.actorNamed target)).bind fun b => ?_
    exact matches_insertChannelBetween.map _
  | removeChannel id =>
    refine Matches.bind (matches_modify fun g h hgh => ?_) fun _ => matches_pure _
    obtain ⟨types, hknown, hforgotten⟩ := hgh
    exact ⟨types, hknown, hforgotten⟩
  | addModifier m => exact matches_addModifier.bind fun _ => matches_pure _
  | clone =>
    -- The types that a graph knows are not read when a copy of it is made.
    refine matches_read fun g types => (matches_lift g.clone).bind fun copy => ?_
    exact Matches.bind (fun _ _ _ => .ok _ (.refl copy)) fun _ => matches_pure _

/-- The results of a sequence of operations, one after the other. -/
def outcomes (g : Graph) : List Operation → List (Except Failure Answer)
  | [] => []
  | op :: ops => op.perform.outcome g :: outcomes (op.perform.after g) ops

/-- A sequence of operations does the same to a copy. -/
theorem Copied.performAll (hcopied : Copied g h) (ops : List Operation) :
    h.outcomes ops = g.outcomes ops ∧ Copied (g.performAll ops) (h.performAll ops) := by
  induction ops generalizing g h with
  | nil => exact ⟨rfl, hcopied⟩
  | cons op ops ih =>
    obtain ⟨houtcomes, hafter⟩ := ih ((matches_perform op).after hcopied)
    exact ⟨congrArg₂ List.cons ((matches_perform op).outcome_eq hcopied) houtcomes, hafter⟩

end Operations

/-- The graphs `g` and `h` have the same results for a sequence of operations, and afterwards they
answer alike and have the same next handle. Only `actorsOf` may differ, on a type that has lost all
its actors, which `h` may not have. -/
structure GoesLike (g h : Graph) (ops : List Operation) : Prop where
  outcomes : h.outcomes ops = g.outcomes ops
  nextHandle : (h.performAll ops).nextHandle = (g.performAll ops).nextHandle
  ask : ∀ {α : Type} (q : Question α), q.ask (h.performAll ops) = q.ask (g.performAll ops)
  actorsOf : ∀ type, (h.performAll ops).actorsOf type = (g.performAll ops).actorsOf type ∨
    (g.performAll ops).actorsOf type = .ok [] ∧
      (h.performAll ops).actorsOf type = .error (.unknownType type)

private theorem Copied.goesLike (hcopied : Copied g h) (ops : List Operation) :
    GoesLike g h ops := by
  obtain ⟨houtcomes, hafter⟩ := hcopied.performAll ops
  exact ⟨houtcomes, hafter.nextHandle_eq, hafter.ask_eq, hafter.actorsOf⟩

/-- `clone` succeeds on every graph that can be built. Its copy answers every question as the graph
does, also after both have gone through the same operations. -/
theorem clone_goesLike (hg : g.Reachable) (ops : List Operation) :
    ∃ copy, g.clone = .ok copy ∧ GoesLike g copy ops := by
  obtain ⟨copy, hclone, hcopied⟩ := hg.wellFormed.exists_clone
  exact ⟨copy, hclone, hcopied.goesLike ops⟩

/-- Two actors with channels side by side, a self-loop and a channel back, and a third one that sets
a parameter for them. One of the channels and the only actor of a fourth kind were removed. -/
def pruned : Graph :=
  performAll (.empty none)
    [ .addActor "a" "A" 0 false, .addActor "b" "A" 0 false, .addActor "c" "C" 0 false,
      .addActor "m" "M" 0 false, .addPort "A" "out" .output (some "p"),
      .addPort "A" "in" .input (some "p"), .addPort "C" "in" .input none,
      .addPort "M" "out" .output (some "p"), .addChannel ("a", "out") ("b", "in") {},
      .addChannel ("a", "out") ("a", "in") {}, .addChannel ("a", "out") ("b", "in") {},
      .addChannel ("a", "out") ("c", "in") {}, .addChannel ("a", "out") ("b", "in") {},
      .addChannel ("b", "out") ("a", "in") { initialTokens := 1 },
      .addChannel ("m", "out") ("a", "in") {}, .addModifier ⟨"M", "p", "int", "1"⟩,
      .removeChannel 8, .removeActor "c" ]

theorem clone_goesLike_pruned :
    pruned.Reachable ∧ pruned.actorsOf "C" = .ok [] ∧
      pruned.channels.map (·.id) = [9, 10, 12, 13, 14] ∧
        ∃ copy, pruned.clone = .ok copy ∧
          GoesLike pruned copy
            [ .insertChannelBetween "b" "b" "2" "2" 0 0, .addActor "d" "C" 0 false, .clone,
              .removeActor "b", .addChannel ("a", "out") ("d", "in") {} ] := by
  have hg : pruned.Reachable := (Reachable.empty none).performAll _
  exact ⟨hg, by decide +kernel, by decide +kernel, clone_goesLike hg _⟩

/-- After the only actor of a type was removed, `actorsOf` returns no actors on the graph, but fails
on its clone, which does not have the type. -/
theorem clone_forgets_type :
    ¬∀ (g copy : Graph) (type : String), g.Reachable → g.clone = .ok copy →
      copy.actorsOf type = g.actorsOf type := by
  intro h
  have hg : ((empty none).performAll [.addActor "a" "A" 0 false, .removeActor "a"]).Reachable :=
    (Reachable.empty none).performAll _
  obtain ⟨copy, hclone, -⟩ := hg.wellFormed.exists_clone
  have hactors := h _ copy "A" hg hclone
  cases hclone
  cases hactors

end Dataflow.Graph
