namespace Dataflow.Text

/-- A path from a root, or from the current place when the root is empty. -/
structure Path where
  root : String
  steps : List String
  deriving DecidableEq

namespace Path

/-- One slash or two make different roots; more than two make the same as one. -/
def rootOf (text : List Char) : String :=
  match (text.takeWhile (· == '/')).length with
  | 0 => ""
  | 2 => "//"
  | _ => "/"

/-- Cut a text at every slash. -/
def splitAtSlashes : List Char → List (List Char)
  | [] => [[]]
  | c :: cs =>
    if c = '/' then [] :: splitAtSlashes cs
    else
      match splitAtSlashes cs with
      | [] => [[c]]
      | step :: steps => (c :: step) :: steps

/-- Read a path. -/
def parse (text : String) : Path where
  root := rootOf text.toList
  steps := ((splitAtSlashes text.toList).map String.ofList).filter fun s => s != "" && s != "."

/-- One step further. -/
def child (p : Path) (step : String) : Path :=
  { p with steps := p.steps ++ [step] }

/-- Write a path; the current place itself is a point. -/
def render (p : Path) : String :=
  let text := p.root ++ "/".intercalate p.steps
  if text = "" then "." else text

end Path

end Dataflow.Text
