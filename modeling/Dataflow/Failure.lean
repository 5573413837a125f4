import Dataflow.Direction
import Dataflow.Text.Quoted

namespace Dataflow

open Text

/-- Why an operation failed. A failure that names terms or channels keeps their texts as they were
when it happened. -/
inductive Failure where
  /-- A divisor was given a power below zero. -/
  | negativePower (key : String) (power : Int)
  /-- A divisor occurs less often than it was to be taken away. -/
  | missingPower (key : String) (present wanted : Nat)
  /-- One term does not divide another, for want of the named divisor. -/
  | indivisible (dividend divisor key : String) (present wanted : Nat)
  /-- A ratio with a denominator was to be read as a term. -/
  | unintegral (ratio : String)
  /-- A rate has a factor zero. -/
  | zeroRate (text token : String)
  /-- A rate has a factor that is no numeral and no identifier. -/
  | malformedRate (text token : String)
  /-- A number below one has no prime factors. -/
  | unfactorable (number : Int)
  /-- A numeral has too many digits to be read. -/
  | numeralTooLong (digits : Nat)
  /-- A number has too many digits to be written. -/
  | numberTooLarge
  /-- A list was to have more items than a list can have. -/
  | repetitionTooLong
  /-- An item was to be taken off a list that it is not on. -/
  | notListed
  /-- A term still depends on parameters. -/
  | parametric (term : String) (parameters : List String)
  /-- A sum of terms with parameters is no single term. -/
  | unsummable (left right : String)
  | duplicateActor (name : String)
  | unknownActor (name : String)
  /-- No actor of the type was ever in the graph. -/
  | unknownType (type : String)
  | duplicatePort (type name : String)
  | unknownPort (type name : String)
  /-- A rate, once given to a port, stays. -/
  | rateFixed (port : String)
  /-- A port that is on a channel has no rate. -/
  | rateMissing (port : String)
  | negativeTokens (tokens : Int) (source target : String × String)
  | wrongDirection (direction : Direction) (actor port : String)
  /-- The channel is no longer in its graph. -/
  | unboundChannel (id : Nat)
  | notAtChannel (actor channel : String)
  | duplicateModifier (parameter modifier : String)
  | unknownModifier (parameter : String)
  /-- Something was to be read off a record that is not there. -/
  | absent (field : String)
  | unknownHandle (handle : Int)
  /-- Some actors cannot be reached from the others. -/
  | disconnected (actors reached : Nat)
  /-- A parameter is set by no actor, or by several. -/
  | ambiguousModifier (parameter type : String) (instances : List String)
  /-- The balance equations contradict each other. -/
  | inconsistent (report : String)
  /-- A user of a parameter could see it change while it fires. -/
  | unsafeUse (parameter report : String)
  /-- The channels close a directed cycle. -/
  | cyclic (report : String)
  | unsolvedActor (name : String)
  | unsolved
  | alreadyInserted
  | alreadyConnected
  | alreadyAnalyzed
  | notAnalyzed
  | applicationNotAnalyzed
  | malformedEndpoint (text : String)
  | unknownDirection (text : String)
  deriving DecidableEq

namespace Failure

/-- A divisor that is to be taken away more often than it is there. -/
def missingPowerText (key : String) (present wanted : Nat) : String :=
  s!"Divisor '{key}' has power {present}, cannot remove power {wanted}"

/-- The message of a failure. -/
def message : Failure → String
  | negativePower key power => s!"Negative power {power} for divisor '{key}'"
  | missingPower key present wanted => missingPowerText key present wanted
  | indivisible dividend divisor key present wanted =>
    s!"{dividend} is not divisible by {divisor}: " ++ missingPowerText key present wanted
  | unintegral ratio => s!"Invalid conversion of {ratio} to an integer monomial"
  | zeroRate text token =>
    s!"Cannot parse rate expression '{text}': token '{token}' is zero; rates must be positive"
  | malformedRate text token =>
    s!"Cannot parse rate expression '{text}': token '{token}' is neither a positive integer " ++
      "nor an identifier"
  | unfactorable number => s!"Invalid number {number}: only positive integers can be factored"
  | numeralTooLong digits =>
    "Exceeds the limit (4300 digits) for integer string conversion: " ++
      s!"value has {digits} digits; use sys.set_int_max_str_digits() to increase the limit"
  | numberTooLarge =>
    "Exceeds the limit (4300 digits) for integer string conversion; " ++
      "use sys.set_int_max_str_digits() to increase the limit"
  | repetitionTooLong => "cannot fit 'int' into an index-sized integer"
  | notListed => "list.remove(x): x not in list"
  | parametric term parameters =>
    s!"Expression {term} still depends on parameters {quoteList parameters}"
  | unsummable left right => s!"Cannot add non-integer expressions {left} and {right}"
  | duplicateActor name => s!"Actor with name {name} added twice"
  | unknownActor name => s!"Actor with name {name} not found"
  | unknownType type => s!"Function (actor type) \"{type}\" not found"
  | duplicatePort type name => s!"Port {name}@{type} added twice"
  | unknownPort type name => s!"Port {name}@{type} not found"
  | rateFixed port => s!"Attempt to set rate for port {port} again"
  | rateMissing port => s!"Port {port} is connected but has no rate"
  | negativeTokens tokens source target =>
    s!"Negative initial tokens {tokens} on {quotePair source} -> {quotePair target}"
  | wrongDirection direction actor port =>
    s!"{direction.word} actor {actor} port={port}: wrong direction"
  | unboundChannel id => s!"Channel {id} is not bound"
  | notAtChannel actor channel => s!"{actor} is not bound to {channel}"
  | duplicateModifier parameter modifier =>
    s!"Parameter {parameter} already has modifier {modifier}"
  | unknownModifier parameter => s!"No modifier for parameter {parameter}"
  | absent field => s!"'NoneType' object has no attribute '{field}'"
  | unknownHandle handle => toString handle
  | disconnected actors reached =>
    s!"The graph is not completely connected: reached {reached} of {actors} actors"
  | ambiguousModifier parameter type [] =>
    s!"No actor of type \"{type}\", which should provide parameter {parameter}, is found in the graph"
  | ambiguousModifier parameter type instances =>
    s!"Multiple actors of type \"{type}\" modify parameter {parameter}: " ++
      s!"{quoteList instances}. Ambiguous!"
  | inconsistent report => report
  | unsafeUse _ report => report
  | cyclic report => report
  | unsolvedActor name => s!"No solution for actor {name}"
  | unsolved => "Balance equations have no solution for this graph"
  | alreadyInserted => "Period actors are already inserted"
  | alreadyConnected => "Parameter sources are already connected to users"
  | alreadyAnalyzed => "Analyzer already ran; the graph has been modified"
  | notAnalyzed => "Analyzer has not run yet"
  | applicationNotAnalyzed => "Application has not been analyzed"
  | malformedEndpoint text => s!"Expected 'actor.port', got {quote text}"
  | unknownDirection text => s!"{quote text} is not a valid PortDir"

end Failure

end Dataflow
