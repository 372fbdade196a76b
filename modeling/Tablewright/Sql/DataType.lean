import Tablewright.Sql.Identifier

/-! The types of columns as the grammar reads them, and their written form. -/

namespace Tablewright.Sql

open Tablewright.Text

/-- The length of a character type. -/
inductive CharLength
  | length (n : Nat) (unit : Option String)
  | max
deriving Repr, DecidableEq

inductive DataType
  /-- A keyword that takes nothing. -/
  | plain (keyword : String)
  | integer (keyword : String) (width : Option Nat) (isUnsigned : Bool)
  /-- A keyword with an optional length or precision, and words after it. -/
  | sized (keyword : String) (size : Option Nat) (suffix : String)
  | character (keyword : String) (length : Option CharLength)
  | exact (keyword : String) (precision : Option (Nat × Option Nat))
  /-- An enumeration or a set with its members. -/
  | members (keyword : String) (names : List String)
  | custom (name : ObjectName) (modifiers : List String)
  | array (element : DataType)
deriving Repr, DecidableEq

namespace CharLength

def render : CharLength → String
  | .length n none => toString n
  | .length n (some unit) => toString n ++ " " ++ unit
  | .max => "MAX"

end CharLength

namespace DataType

/-- Text in parentheses, if there is any. -/
def parenthesised : Option String → String
  | none => ""
  | some s => "(" ++ s ++ ")"

/-- The members between single quotes. -/
def renderMembers (names : List String) : String := join ", " (names.map (quoted '\x27'))

def render : DataType → String
  | .plain keyword => keyword
  | .integer keyword width isUnsigned =>
    keyword ++ parenthesised (width.map toString) ++ (if isUnsigned then " UNSIGNED" else "")
  | .sized keyword size suffix => keyword ++ parenthesised (size.map toString) ++ suffix
  | .character keyword length => keyword ++ parenthesised (length.map CharLength.render)
  | .exact keyword precision => keyword ++ parenthesised (precision.map fun (p, scale) =>
      match scale with
      | none => toString p
      | some s => toString p ++ "," ++ toString s)
  | .members keyword names => keyword ++ parenthesised (some (renderMembers names))
  | .custom name modifiers =>
    name.render ++ (if modifiers.isEmpty then "" else parenthesised (some (join ", " modifiers)))
  | .array element => element.render ++ "[]"

end DataType

end Tablewright.Sql
