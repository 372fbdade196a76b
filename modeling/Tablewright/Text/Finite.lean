import Tablewright.Text.Decimal

/-! Decimal numerals in scientific notation, and whether the binary64 number nearest to one is
finite. -/

namespace Tablewright.Text

/-- A number `digits * 10 ^ exponent`. -/
structure Scientific where
  digits : Nat
  exponent : Int
deriving Repr, DecidableEq

namespace Scientific

/-- The number that the text of an exponent stands for: nothing at all, or a letter, a sign or none,
and digits. -/
def exponent? : List Char → Option Int
  | [] => some 0
  | e :: rest =>
    if e = 'e' || e = 'E' then
      match rest with
      | '-' :: digits => (numeral? digits).map fun n => -(n : Int)
      | '+' :: digits => (numeral? digits).map fun n => (n : Int)
      | digits => (numeral? digits).map fun n => (n : Int)
    else none

/-- An unsigned numeral: digits, with a point before, among or after them, and an exponent. -/
def parse? (cs : List Char) : Option Scientific :=
  let whole := cs.takeWhile Char.isDigit
  let rest := cs.dropWhile Char.isDigit
  let (fraction, rest) := match rest with
    | '.' :: rest => (rest.takeWhile Char.isDigit, rest.dropWhile Char.isDigit)
    | rest => ([], rest)
  match numeral? (whole ++ fraction), exponent? rest with
  | some digits, some exponent => some ⟨digits, exponent - fraction.length⟩
  | _, _ => none

/-- The least number that is rounded to infinity. -/
def overflow : Nat := Nat.pow 2 1024 - Nat.pow 2 970

/-- Whether the number is less than `overflow`, which lies between `10 ^ 308` and `10 ^ 309`. -/
def isFinite (x : Scientific) : Bool :=
  let places : Int := (Nat.toDigits 10 x.digits).length + x.exponent
  x.digits == 0 || places ≤ 308 ||
    (places ≤ 309 &&
      if x.exponent < 0 then x.digits < overflow * Nat.pow 10 x.exponent.natAbs
      else x.digits * Nat.pow 10 x.exponent.toNat < overflow)

end Scientific

end Tablewright.Text
