import Tablewright.Value.Basic
import Tablewright.Yaml.Written

/-! Values as YAML: one field or item a line. Items stand as deep as the key of their list, and the
fields of a record two blanks deeper than what holds it. -/

namespace Tablewright.Value

open Yaml

mutual

/-- A value after the dash of an item in a list at `column`, up to the end of its last line. -/
def yamlItem (column : Nat) : Value → List Char
  | .null => " null\n".toList
  | .flag b => (if b then " true\n" else " false\n").toList
  | .number n => ' ' :: (toString n).toList ++ ['\n']
  | .text s => ' ' :: Written.line column s
  | .list [] => " []\n".toList
  | .list (v :: vs) => yamlItems (column + 2) [' '] (v :: vs)
  | .record [] => " \x7b\x7d\n".toList
  | .record (f :: fs) => yamlFields (column + 2) [' '] (f :: fs)

/-- A value after the colon of a field in a record at `column`, up to the end of its last line. -/
def yamlField (column : Nat) : Value → List Char
  | .null => " null\n".toList
  | .flag b => (if b then " true\n" else " false\n").toList
  | .number n => ' ' :: (toString n).toList ++ ['\n']
  | .text s => ' ' :: Written.line column s
  | .list [] => " []\n".toList
  | .list (v :: vs) => '\n' :: yamlItems column (Written.spaces column) (v :: vs)
  | .record [] => " \x7b\x7d\n".toList
  | .record (f :: fs) => '\n' :: yamlFields (column + 2) (Written.spaces (column + 2)) (f :: fs)

/-- The items of a list at `column`. `lead` stands before the first of them. -/
def yamlItems (column : Nat) (lead : List Char) : List Value → List Char
  | [] => []
  | v :: vs =>
    lead ++ '-' :: yamlItem column v ++ yamlItems column (Written.spaces column) vs

/-- The fields of a record at `column`. `lead` stands before the first of them. -/
def yamlFields (column : Nat) (lead : List Char) : List (String × Value) → List Char
  | [] => []
  | (key, v) :: rest =>
    lead ++ key.toList ++ ':' :: yamlField column v ++
      yamlFields column (Written.spaces column) rest

end

/-- The text of a list of values. -/
def yamlList : List Value → String
  | [] => "[]\n"
  | vs => .ofList (yamlItems 0 [] vs)

end Tablewright.Value
