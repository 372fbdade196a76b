import Tablewright.Text.Hexadecimal
import Tablewright.Text.Split
import Tablewright.Value.Basic

/-! Values as JSON: one field or item a line, two blanks of indentation for every level, and nothing
between the brackets of an empty list. -/

namespace Tablewright.Value

open Text

/-- A character inside a JSON string. -/
def jsonChar (c : Char) : List Char :=
  match c with
  | '"' => ['\\', '"']
  | '\\' => ['\\', '\\']
  | '\x08' => ['\\', 'b']
  | '\x0c' => ['\\', 'f']
  | '\n' => ['\\', 'n']
  | '\r' => ['\\', 'r']
  | '\t' => ['\\', 't']
  | c => if c.toNat < 0x20 then ['\\', 'u'] ++ hex 4 c.toNat else [c]

def jsonString (s : String) : String := .ofList ('"' :: s.toList.flatMap jsonChar ++ ['"'])

/-- A line break, and the indentation of a level. -/
def jsonBreak (level : Nat) : String := .ofList ('\n' :: List.replicate (2 * level) ' ')

/-- Members at a level between brackets that stand one level further out. -/
def jsonBlock (opening closing : String) (level : Nat) (members : List String) : String :=
  if members.isEmpty then opening ++ closing
  else opening ++ jsonBreak (level + 1) ++ join ("," ++ jsonBreak (level + 1)) members ++
    jsonBreak level ++ closing

mutual

/-- A value whose first line continues a line at `level`. -/
def json (level : Nat) : Value → String
  | .null => "null"
  | .flag b => if b then "true" else "false"
  | .number n => toString n
  | .text s => jsonString s
  | .list items => jsonBlock "[" "]" level (jsonItems (level + 1) items)
  | .record fields => jsonBlock "\x7b" "\x7d" level (jsonFields (level + 1) fields)

def jsonItems (level : Nat) : List Value → List String
  | [] => []
  | v :: vs => v.json level :: jsonItems level vs

def jsonFields (level : Nat) : List (String × Value) → List String
  | [] => []
  | (key, v) :: rest => (jsonString key ++ ": " ++ v.json level) :: jsonFields level rest

end

end Tablewright.Value
