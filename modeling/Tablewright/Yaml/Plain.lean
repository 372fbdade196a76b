import Tablewright.Text.Finite

/-! What a text stands for when it is written without quotes: nothing, a flag, a number, or itself.
-/

namespace Tablewright.Yaml.Plain

open Text

/-- Whether the text is one of the words for no value. -/
def isNullWord (s : String) : Bool := ["null", "Null", "NULL", "~"].contains s

/-- Whether the text stands for no value. The empty text does too. -/
def isNull (s : String) : Bool := s == "" || isNullWord s

def flag? (s : String) : Option Bool :=
  if ["true", "True", "TRUE"].contains s then some true
  else if ["false", "False", "FALSE"].contains s then some false
  else none

/-- Whether digits follow a needless zero. Such a text is no number. -/
def hasLeadingZero : List Char → Bool
  | '0' :: d :: rest => (d :: rest).all Char.isDigit
  | _ => false

def unsigned : List Char → List Char
  | '+' :: rest => rest
  | '-' :: rest => rest
  | cs => cs

def digit? (base : Nat) (c : Char) : Option Nat :=
  let value :=
    if c.isDigit then c.toNat - '0'.toNat
    else if 'a' ≤ c && c ≤ 'f' then 10 + (c.toNat - 'a'.toNat)
    else if 'A' ≤ c && c ≤ 'F' then 10 + (c.toNat - 'A'.toNat)
    else base
  if value < base then some value else none

/-- The number that digits in the given base stand for, continuing from `acc`. -/
def digits? (base acc : Nat) : List Char → Option Nat
  | [] => some acc
  | c :: rest =>
    match digit? base c with
    | some d => digits? base (acc * base + d) rest
    | none => none

/-- The value of a numeral without sign: hexadecimal after `0x`, octal after `0o`, binary after
`0b`, and else decimal. -/
def magnitude? (cs : List Char) : Option Nat :=
  match cs with
  | [] => none
  | '0' :: 'x' :: c :: rest => digits? 16 0 (c :: rest)
  | '0' :: 'o' :: c :: rest => digits? 8 0 (c :: rest)
  | '0' :: 'b' :: c :: rest => digits? 2 0 (c :: rest)
  | cs => if hasLeadingZero cs then none else digits? 10 0 cs

/-- The value of a numeral that is not negative. -/
def natural? (cs : List Char) : Option Nat :=
  match cs with
  | '+' :: rest => magnitude? rest
  | cs => magnitude? cs

/-- Whether the text is a whole number of at most 128 bits. -/
def isInteger (cs : List Char) : Bool :=
  match cs with
  | '-' :: rest => (magnitude? rest).any (· ≤ Nat.pow 2 127)
  | cs => (natural? cs).any (· < Nat.pow 2 128)

/-- The words for infinity. -/
def isInfinity (s : String) : Bool := [".inf", ".Inf", ".INF"].contains s

/-- Whether the text is a number with a point or an exponent that is not too large, or a word for a
number that is not finite. -/
def isFloat (s : String) : Bool :=
  isInfinity (.ofList (unsigned s.toList)) || [".nan", ".NaN", ".NAN"].contains s ||
    (Scientific.parse? (unsigned s.toList)).any (·.isFinite)

/-- Whether the text, written without quotes, stands for something else than itself. -/
def standsForOther (s : String) : Bool :=
  isNull s || (flag? s).isSome || isInteger s.toList || isFloat s ||
    hasLeadingZero (unsigned s.toList)

end Tablewright.Yaml.Plain
