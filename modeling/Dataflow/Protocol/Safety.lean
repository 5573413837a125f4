import Dataflow.Workspace

namespace Dataflow

open Text

/-- A user whose firing count is no multiple of that of the period actor. -/
structure Misuse where
  parameter : String
  user : Actor
  userCount : Monomial
  sourceCount : Monomial

namespace Misuse

/-- The violation in one sentence. -/
def report (m : Misuse) : Except Failure String := do
  return s!"Safety violation: parameter \"{m.parameter}\" user {m.user.name} solution " ++
    (← m.userCount.render) ++ " is not a multiple of the period actor solution " ++
    (← m.sourceCount.render)

/-- The failure with which a misuse is raised. -/
def failure (m : Misuse) : Except Failure Failure :=
  Failure.unsafeUse m.parameter <$> m.report

end Misuse

namespace Protocol

/-- The first of the users of a parameter that misuses it. -/
def misuseAmong? (table : Repetitions) (parameter : String) (sourceCount : Monomial) :
    List Actor → Except Failure (Option Misuse)
  | [] => return none
  | user :: users => do
    let userCount ← table.get user
    if sourceCount.divides userCount then misuseAmong? table parameter sourceCount users
    else return some { parameter, user, userCount, sourceCount }

/-- The first misuse of one of the given parameters, each of which must have a period actor. -/
def misuseOf? (p : Protocol) (table : Repetitions) : List String → Except Failure (Option Misuse)
  | [] => return none
  | parameter :: parameters =>
    match p.source? parameter with
    | none => throw (.absent "id")
    | some source => do
      match ← misuseAmong? table parameter (← table.get source) (p.usersOf parameter) with
      | some misuse => return some misuse
      | none => misuseOf? p table parameters

/-- The first misuse, by parameter in ascending order and then by user. -/
def misuse? (p : Protocol) (table : Repetitions) : Except Failure (Option Misuse) :=
  p.misuseOf? table (sortTexts p.modifiedParameters)

end Protocol

namespace Workspace

/-- Check that every user of a parameter fires a whole number of times for each firing of the
parameter's period actor. -/
def checkSafety (table : Repetitions) : Action Workspace (Verdict Unit Misuse) := do
  let p := (← get).protocol
  match ← p.misuse? table with
  | some misuse =>
    note .warning (← misuse.report)
    return .violated misuse
  | none =>
    note .debug s!"Parameter modification is safe for {quoteList (sortTexts p.modifiedParameters)}"
    return .success ()

end Workspace

end Dataflow
