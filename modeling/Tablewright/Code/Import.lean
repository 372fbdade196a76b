import Tablewright.Code.Layout

/-! The import clause of a file. Paths of the standard library come first, then the others, each
group in ascending order. -/

namespace Tablewright.Code

open Tablewright.Text

/-- Paths of the standard library have no dot in their first segment. -/
def isStandardPath (path : String) : Bool :=
  !(path.toList.takeWhile (· != '/')).contains '.'

def sortPaths (paths : List String) : List String := paths.mergeSort fun a b => decide (a ≤ b)

/-- The lines between the parentheses of an import clause: two groups, and an empty line between
them if neither is empty. -/
def groupedImports (imports : List String) : List String :=
  let standard := sortPaths (imports.filter isStandardPath)
  let others := sortPaths (imports.filter (!isStandardPath ·))
  let line (path : String) := "\t\"" ++ path ++ "\""
  standard.map line ++ (if standard.isEmpty || others.isEmpty then [] else [""]) ++ others.map line

/-- The lines of the import clause with the empty line before it. -/
def importLines : List String → List String
  | [] => []
  | [path] => ["", "import \"" ++ path ++ "\""]
  | imports => ["", "import ("] ++ groupedImports imports ++ [")"]

end Tablewright.Code
