import Tablewright.Schema.Error
import Tablewright.Text.Blank
import Tablewright.Text.Decimal
import Tablewright.Text.Split

/-! The declared type of a column, read from its written form such as `BIGINT(20) UNSIGNED`: the
keyword, the first modifier as a size, and whether the type is unsigned. Member lists of `ENUM` and
`SET` are not sizes. -/

namespace Tablewright

open Text

structure ColumnType where
  /-- In lower case. -/
  keyword : String
  /-- Zero if there is no modifier. -/
  size : UInt64
  isUnsigned : Bool
deriving Repr, DecidableEq

namespace ColumnType

/-- What comes before the first parenthesis or ASCII blank, in lower case. -/
def keywordOf (cs : List Char) : List Char :=
  (cs.takeWhile fun c => !(c == '(' || isAsciiBlank c)).map Char.toLower

/-- The text up to the parenthesis that closes the `depth` open ones. Parentheses between single
quotes do not count. -/
def untilClosed (depth : Nat) (inQuotes : Bool) : List Char → Option (List Char)
  | [] => none
  | c :: rest =>
    if c = '\x27' then (untilClosed depth (!inQuotes) rest).map (c :: ·)
    else if c = '(' && !inQuotes then (untilClosed (depth + 1) inQuotes rest).map (c :: ·)
    else if c = ')' && !inQuotes then
      if depth ≤ 1 then some [] else (untilClosed (depth - 1) inQuotes rest).map (c :: ·)
    else (untilClosed depth inQuotes rest).map (c :: ·)

/-- The text between the first parenthesis and the one that closes it. -/
def modifiers? (cs : List Char) : Option (List Char) :=
  match cs.dropWhile (· != '(') with
  | [] => none
  | _ :: rest => untilClosed 1 false rest

/-- The first of the modifiers, without the blanks around it. -/
def firstModifier (modifiers : List Char) : List Char :=
  trim (modifiers.takeWhile (· != ','))

/-- The size that a first modifier stands for: none if it is blank or quoted. -/
def sizeOf? (modifier : List Char) : Option UInt64 :=
  match modifier with
  | [] => some 0
  | c :: _ => if c = '\x27' || c = '"' then some 0 else signedWord64? modifier

/-- Whether some word of the text is `unsigned`, in any case. Blanks and closing parentheses end a
word. -/
def saysUnsigned (cs : List Char) : Bool :=
  (splitAt (fun c => isAsciiBlank c || c == ')') cs).any fun word =>
    word.map Char.toLower == "unsigned".toList

/-- The size in a written type with the given keyword. -/
def declaredSize (keyword written : List Char) (column : String) : Except SchemaError UInt64 :=
  match modifiers? written with
  | none => .ok 0
  | some list =>
    if keyword = "enum".toList || keyword = "set".toList then .ok 0
    else match sizeOf? (firstModifier list) with
      | some size => .ok size
      | none => .error (.invalidTypeModifier column (.ofList (firstModifier list)))

/-- Reads the written type of the given column. -/
def parse (written : String) (column : String) : Except SchemaError ColumnType :=
  let written := trim written.toList
  let keyword := keywordOf written
  (declaredSize keyword written column).map fun size =>
    { keyword := .ofList keyword, size := size, isUnsigned := saysUnsigned written }

end ColumnType

end Tablewright
