import Dataflow.Journal.Basic
import Dataflow.Text.Path

namespace Dataflow

open Text

/-- The folder of a day. -/
def dayFolder (root : Option String) (year month day : Nat) : Path :=
  let padded (n : Nat) : String := if n < 10 then s!"0{n}" else toString n
  (Path.parse (root.getD "logs")).child s!"{year}-{padded month}-{padded day}"

/-- A file that receives the records of some levels. -/
structure JournalFile where
  name : String
  minimum : Level
  others : List Level

namespace JournalFile

/-- The files of a day. Every level lands in exactly one of them. -/
def all : List JournalFile :=
  [ ⟨"debug.json", .trace, [.debug]⟩,
    ⟨"info.json", .info, [.success]⟩,
    ⟨"warning.json", .warning, []⟩,
    ⟨"error.json", .error, [.critical]⟩ ]

/-- Whether a file receives the records of a level. -/
def accepts (file : JournalFile) (level : Level) : Bool :=
  (file.minimum :: file.others).contains level

/-- The place of a file in the folder of a day. -/
def path (file : JournalFile) (folder : Path) : Path :=
  folder.child file.name

end JournalFile

end Dataflow
