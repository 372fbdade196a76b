import Tablewright.Code.Basic
import Tablewright.Text.Runs
import Tablewright.Text.Split

/-! Columns of text. A column is as wide as the bytes of its longest text, and a text is filled up
with blanks by the characters it lacks, so a column may be wider than any text in it. -/

namespace Tablewright.Code

open Tablewright.Text

/-- The text filled up with blanks to `width` characters. -/
def pad (width : Nat) (s : String) : String := s ++ .ofList (List.replicate (width - s.length) ' ')

/-- The bytes of the longest text. -/
def columnWidth (texts : List String) : Nat := (texts.map String.utf8ByteSize).foldl max 0

/-- The tags of a field between backticks. -/
def tagText (tags : List (String × String)) : String :=
  "`" ++ join " " (tags.map fun (key, value) => key ++ ":\"" ++ value ++ "\"") ++ "`"

/-- The lines of neighbouring named fields: names, types and tags each in a column. The types come
already written. -/
def alignedFields (run : List (Field × String)) : List String :=
  let nameWidth := columnWidth (run.filterMap (·.1.name))
  let typeWidth := columnWidth (run.map (·.2))
  run.map fun (field, type) =>
    let name := pad nameWidth (field.name.getD "")
    if field.tags.isEmpty then name ++ " " ++ type
    else name ++ " " ++ pad typeWidth type ++ " " ++ tagText field.tags

/-- The lines of a struct's fields, given with their written types. An embedded field is its type
alone, and parts the columns. -/
def fieldLines (fields : List (Field × String)) : List String :=
  (runs (·.1.name.isSome) fields).flatMap fun run =>
    match run with
    | [(⟨none, _, _⟩, type)] => [type]
    | _ => alignedFields run

def isOneLine (value : String) : Bool := !value.toList.contains '\n'

/-- The lines of neighbouring entries with one-line values, the values in a column. -/
def alignedEntries (run : List (String × String)) : List String :=
  let width := columnWidth (run.map fun (key, _) => key ++ ":")
  run.map fun (key, value) => pad width (key ++ ":") ++ " " ++ value ++ ","

/-- The entries of a keyed literal, each with its key, its value and a comma. An entry whose value
takes several lines parts the columns. -/
def entryLines (entries : List (String × String)) : List String :=
  (runs (fun (_, value) => isOneLine value) entries).flatMap fun run =>
    match run with
    | [(key, value)] =>
      if isOneLine value then alignedEntries run else [key ++ ": " ++ value ++ ","]
    | _ => alignedEntries run

end Tablewright.Code
