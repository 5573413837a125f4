namespace Dataflow.Text

/-- Lexicographic order by code point. -/
def precedes : List Char → List Char → Bool
  | [], _ => true
  | _ :: _, [] => false
  | a :: as, b :: bs => Nat.blt a.toNat b.toNat || (a == b && precedes as bs)

/-- Whether one text comes before another or equals it. -/
def textLE (s t : String) : Bool :=
  precedes s.toList t.toList

/-- Texts in ascending order. -/
def sortTexts (texts : List String) : List String :=
  texts.mergeSort textLE

end Dataflow.Text
