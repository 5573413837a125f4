import Dataflow.Graph.Edit
import Dataflow.Proofs.Action

namespace Dataflow.Graph

/-- A change to a graph. Actors and ports are given by name, channels by their handles. -/
inductive Operation where
  | addActor (name type : String) (execTime : Int) (auto : Bool)
  | removeActor (name : String)
  | addPort (type name : String) (direction : Direction) (rate : Option String)
  | setRate (type name rate : String)
  | addChannel (source target : String × String) (spec : ChannelSpec)
  | insertChannelBetween (source target sourceRate targetRate : String)
      (initialTokens tokenSize : Int)
  | removeChannel (id : Handle)
  | addModifier (m : Modifier)
  /-- Go on with a copy of the graph. -/
  | clone

/-- The result of an operation. -/
inductive Answer where
  | actor (a : Actor)
  | port (p : Port)
  | channel (c : Channel)
  | channels (cs : List Channel)
  | done
  deriving DecidableEq

/-- Carry out an operation. -/
def Operation.perform : Operation → Action Graph Answer
  | addActor name type execTime auto => Answer.actor <$> Graph.addActor name type execTime auto
  | removeActor name => do
    let a ← (← get).actorNamed name
    modify (·.removeActor a)
    return .done
  | addPort type name direction rate => Answer.port <$> Graph.addPort type name direction rate
  | setRate type name rate => do
    let p ← (← get).portNamed type name
    Graph.setRate p rate
    return .done
  | addChannel source target spec => Answer.channel <$> Graph.addChannel source target spec
  | insertChannelBetween source target sourceRate targetRate initialTokens tokenSize => do
    let source ← (← get).actorNamed source
    let target ← (← get).actorNamed target
    Answer.channel <$>
      Graph.insertChannelBetween source target sourceRate targetRate initialTokens tokenSize
  | removeChannel id => do
    modify (·.removeChannel id)
    return .done
  | addModifier m => do
    Graph.addModifier m
    return .done
  | clone => do
    let copy ← (← get).clone
    set copy
    return .done

/-- The graphs that some sequence of operations, successful or refused, leaves behind. -/
inductive Reachable : Graph → Prop
  | empty (name : Option String) : Reachable (.empty name)
  | perform {g : Graph} (op : Operation) (h : Reachable g) : Reachable (op.perform.after g)

/-- What a sequence of operations leaves of a graph. -/
def performAll (g : Graph) (ops : List Operation) : Graph :=
  ops.foldl (fun g op => op.perform.after g) g

theorem Reachable.performAll {g : Graph} (h : g.Reachable) (ops : List Operation) :
    (g.performAll ops).Reachable := by
  induction ops generalizing g with
  | nil => exact h
  | cons op ops ih => exact ih (h.perform op)

section Additions

variable (g : Graph)

theorem addActor_eq (name type : String) (execTime : Int) (auto : Bool) :
    addActor name type execTime auto g =
      if g.hasActor name then .error (.duplicateActor name) g
      else .ok ⟨g.nextHandle, name, type, execTime, auto⟩
        { g with
          actors := g.actors ++ [⟨g.nextHandle, name, type, execTime, auto⟩]
          types := if g.types.contains type then g.types else g.types ++ [type]
          nextHandle := g.nextHandle + 1 } := by
  rw [addActor, Action.get_bind_apply]
  cases g.hasActor name <;> rfl

theorem addPort_eq (type name : String) (direction : Direction) (rate : Option String) :
    addPort type name direction rate g =
      if g.hasPort type name then .error (.duplicatePort type name) g
      else .ok ⟨g.nextHandle, type, name, direction⟩
        { g with
          ports := g.ports ++ [⟨g.nextHandle, type, name, direction⟩]
          rates := g.rates ++ rate.toList.map (g.nextHandle, ·)
          nextHandle := g.nextHandle + 1 } := by
  rw [addPort, Action.get_bind_apply]
  cases g.hasPort type name <;> rfl

theorem setRate_eq (p : Port) (rate : String) :
    setRate p rate g =
      if (g.rateText? p).isSome then .error (.rateFixed p.text) g
      else .ok () { g with rates := g.rates ++ [(p.id, rate)] } := by
  rw [setRate, Action.get_bind_apply]
  cases (g.rateText? p).isSome <;> rfl

theorem addModifier_eq (m : Modifier) :
    addModifier m g =
      match g.modifiers.find? (·.parameter == m.parameter) with
      | some present => .error (.duplicateModifier m.parameter present.text) g
      | none => .ok () { g with modifiers := g.modifiers ++ [m] } := by
  rw [addModifier, Action.get_bind_apply]
  cases g.modifiers.find? (·.parameter == m.parameter) <;> rfl

private theorem freshHandle_bind_apply {β : Type} (next : Handle → Action Graph β) :
    (freshHandle >>= next) g = next g.nextHandle { g with nextHandle := g.nextHandle + 1 } := rfl

/-- A channel that is refused for its ends has used up a handle, one that is refused for its tokens
has not. -/
theorem addChannel_eq (source target : String × String) (spec : ChannelSpec) :
    addChannel source target spec g =
      if spec.initialTokens < 0 then
        .error (.negativeTokens spec.initialTokens source target) g
      else
        match g.endpoint source .output, g.endpoint target .input with
        | .ok a, .ok b =>
          let channel : Channel :=
            ⟨g.nextHandle, spec.name, spec.initialTokens.toNat, spec.tokenSize, spec.auto, a, b⟩
          .ok channel
            { g with
              channels := g.channels ++ [channel]
              linked := g.linked ++ [channel]
              nextHandle := g.nextHandle + 1 }
        | .error e, _ => .error e { g with nextHandle := g.nextHandle + 1 }
        | .ok _, .error e => .error e { g with nextHandle := g.nextHandle + 1 } := by
  -- The handle that is used up does not matter to the ends.
  have hends : { g with nextHandle := g.nextHandle + 1 }.endpoint = g.endpoint := rfl
  unfold addChannel
  by_cases h : spec.initialTokens < 0
  · simp only [h, if_true]
    rfl
  · simp only [h, if_false]
    rw [freshHandle_bind_apply, Action.get_bind_apply, hends, Action.lift_bind_apply]
    cases g.endpoint source .output with
    | error e => rfl
    | ok a =>
      dsimp only
      rw [Action.get_bind_apply, hends, Action.lift_bind_apply]
      cases g.endpoint target .input <;> rfl

end Additions

section Removals

variable (g : Graph)

theorem removeChannel_eq (id : Handle) :
    g.removeChannel id =
      { g with
        channels := g.channels.filter (·.id != id)
        linked := g.linked.filter (·.id != id) } := rfl

theorem foldl_removeChannel (cs : List Channel) :
    cs.foldl (fun g c => g.removeChannel c.id) g =
      { g with
        channels := g.channels.filter fun c => c.id ∉ cs.map (·.id)
        linked := g.linked.filter fun c => c.id ∉ cs.map (·.id) } := by
  induction cs generalizing g with
  | nil =>
    have hall (l : List Channel) :
        l.filter (fun c => c.id ∉ ([] : List Channel).map (·.id)) = l := by
      simp
    rw [List.foldl_nil, hall, hall]
  | cons c cs ih =>
    rw [List.foldl_cons, ih, removeChannel_eq]
    simp only [List.filter_filter, List.map_cons, List.mem_cons, not_or]
    congr 1 <;>
    · apply List.filter_congr
      intro d _
      by_cases h : d.id = c.id <;> simp [h]

/-- The channels of an actor are those that end at it. -/
theorem mem_channelsOf {a : Actor} {c : Channel} :
    c ∈ g.channelsOf a ↔
      c ∈ g.linked ∧ (c.source.actor.id = a.id ∨ c.target.actor.id = a.id) := by
  simp only [channelsOf, List.mem_append, List.mem_filter, beq_iff_eq, bne_iff_ne,
    Bool.and_eq_true]
  by_cases h : c.target.actor.id = a.id <;> simp [h]

end Removals

end Dataflow.Graph
