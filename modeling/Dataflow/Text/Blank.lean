import Dataflow.Text.CharClass

namespace Dataflow.Text

/-- The spaces, the line ends and the information separators. -/
def blanks : CharClass :=
  [
    (0x09, 0x0D), (0x1C, 0x20), (0x85, 0x85), (0xA0, 0xA0), (0x1680, 0x1680), (0x2000, 0x200A),
    (0x2028, 0x2029), (0x202F, 0x202F), (0x205F, 0x205F), (0x3000, 0x3000)
  ]

/-- Whether a character counts as empty room around a token. -/
def isBlank (c : Char) : Bool :=
  blanks.has c

/-- Drop the blanks at both ends. -/
def trim (cs : List Char) : List Char :=
  ((cs.dropWhile isBlank).reverse.dropWhile isBlank).reverse

end Dataflow.Text
