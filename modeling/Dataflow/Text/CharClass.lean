namespace Dataflow.Text

/-- Closed intervals of code points. -/
abbrev CharClass := List (Nat × Nat)

/-- Whether a character lies in one of the intervals. -/
def CharClass.has (cls : CharClass) (c : Char) : Bool :=
  cls.any fun span => span.1 ≤ c.toNat && c.toNat ≤ span.2

end Dataflow.Text
