namespace Dataflow

/-- How much a record matters. -/
inductive Level where
  | trace
  | debug
  | info
  | success
  | warning
  | error
  | critical
  deriving DecidableEq

namespace Level

/-- All levels, the least important first. -/
def all : List Level :=
  [trace, debug, info, success, warning, error, critical]

/-- The name by which a level is known. -/
def name : Level → String
  | trace => "TRACE"
  | debug => "DEBUG"
  | info => "INFO"
  | success => "SUCCESS"
  | warning => "WARNING"
  | error => "ERROR"
  | critical => "CRITICAL"

/-- The level of a name. -/
def ofName? (s : String) : Option Level :=
  all.find? (·.name == s)

end Level

/-- One line of the journal. A record that was made while a graph was under analysis carries the
name of the graph. -/
structure Record where
  level : Level
  graph : Option String
  message : String
  deriving DecidableEq

/-- Records in the order in which they were made. -/
abbrev Journal := List Record

namespace Journal

/-- The journal with one more record. -/
def note (journal : Journal) (level : Level) (message : String) : Journal :=
  journal ++ [⟨level, none, message⟩]

/-- Mark all records as made for the graph of a name. -/
def stamp (journal : Journal) (graph : Option String) : Journal :=
  journal.map fun record => { record with graph }

end Journal

end Dataflow
