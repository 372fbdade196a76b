/-! Decimal numerals: non-empty runs of ASCII digits, read as natural numbers. -/

namespace Tablewright.Text

def digitValue (c : Char) : Nat := c.toNat - '0'.toNat

/-- The number that a run of digits stands for, continuing from `acc`. -/
def digitsValue (acc : Nat) (cs : List Char) : Nat :=
  cs.foldl (fun n c => 10 * n + digitValue c) acc

/-- The value of a numeral, if every character is a digit and there is one. -/
def numeral? (cs : List Char) : Option Nat :=
  if cs.isEmpty || !cs.all Char.isDigit then none else some (digitsValue 0 cs)

/-- The value of a numeral below `2 ^ 64`. -/
def word64? (cs : List Char) : Option UInt64 :=
  match numeral? cs with
  | some n => if n < UInt64.size then some (UInt64.ofNat n) else none
  | none => none

/-- As `word64?`, but a plus sign may come first. -/
def signedWord64? (cs : List Char) : Option UInt64 :=
  match cs with
  | '+' :: rest => word64? rest
  | _ => word64? cs

end Tablewright.Text
