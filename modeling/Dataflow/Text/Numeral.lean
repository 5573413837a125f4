import Dataflow.Failure

namespace Dataflow.Text

/-- The digit zero of each script; its nine successors are the other digits. -/
def zeros : List Nat :=
  [
    0x30, 0x660, 0x6F0, 0x7C0, 0x966, 0x9E6, 0xA66, 0xAE6, 0xB66, 0xBE6, 0xC66, 0xCE6, 0xD66,
    0xDE6, 0xE50, 0xED0, 0xF20, 0x1040, 0x1090, 0x17E0, 0x1810, 0x1946, 0x19D0, 0x1A80, 0x1A90,
    0x1B50, 0x1BB0, 0x1C40, 0x1C50, 0xA620, 0xA8D0, 0xA900, 0xA9D0, 0xA9F0, 0xAA50, 0xABF0, 0xFF10,
    0x104A0, 0x10D30, 0x11066, 0x110F0, 0x11136, 0x111D0, 0x112F0, 0x11450, 0x114D0, 0x11650,
    0x116C0, 0x11730, 0x118E0, 0x11950, 0x11C50, 0x11D50, 0x11DA0, 0x16A60, 0x16AC0, 0x16B50,
    0x1D7CE, 0x1D7D8, 0x1D7E2, 0x1D7EC, 0x1D7F6, 0x1E140, 0x1E2F0, 0x1E950, 0x1FBF0
  ]

/-- The value of a decimal digit. -/
def digitValue? (c : Char) : Option Nat :=
  (zeros.find? fun z => z ≤ c.toNat && c.toNat < z + 10).map (c.toNat - ·)

/-- A numeral is a text of digits, at least one. -/
def isNumeral (s : String) : Bool :=
  !s.toList.isEmpty && s.toList.all fun c => (digitValue? c).isSome

namespace Numeral

/-- No numeral with more digits is read or written. -/
def maxDigits : Nat := 4300

/-- The value of a text of digits, the most significant digit first. -/
def value (s : String) : Nat :=
  s.toList.foldl (fun n c => 10 * n + (digitValue? c).getD 0) 0

/-- Read a text of digits. Zeros in front count as digits. -/
def read (s : String) : Except Failure Nat :=
  if s.length ≤ maxDigits then .ok (value s) else .error (.numeralTooLong s.length)

/-- Whether a number has few enough digits to be written. -/
def isWritable (n : Nat) : Bool :=
  n < Nat.pow 10 maxDigits

/-- Write a number in decimal. -/
def write (n : Nat) : Except Failure String :=
  if isWritable n then .ok n.repr else .error .numberTooLarge

/-- A failure with a number in its message, or the failure of a number that is too long to be
written. -/
def telling (n : Nat) (failure : Failure) : Failure :=
  if isWritable n then failure else .numberTooLarge

end Numeral

end Dataflow.Text
