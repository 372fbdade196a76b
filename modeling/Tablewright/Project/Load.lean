import Tablewright.Error
import Tablewright.Files.Path
import Tablewright.Schema.Declaration
import Tablewright.Schema.Stored

/-! Tables from files: a directory with one declaration a file, or the stored schema. -/

namespace Tablewright

namespace Tables

/-- The tables that a text holds. Their flags must agree with their names. -/
def ofYaml (text : String) : Except Error Tables :=
  match parseYaml? text with
  | none => .error .stored
  | some ts =>
    (ts.checkFlags.map fun () => ts).mapError .schema

/-- The names of declaration files in ascending order. -/
def declarationNames (names : List String) : List String :=
  (names.filter (Files.hasExtension "sql")).mergeSort fun a b => decide (a ≤ b)

/-- Adds the table that the text of a file declares. -/
def pushDeclared (ts : Tables) (path text : String) : Except Error Tables :=
  (do ts.push (← Table.ofSql text)).mapError (.table path)

variable {m : Type → Type} [Monad m] [FileAccess m]

/-- Adds the tables that the named files of a directory declare, up to the first that fails. -/
def pushFiles (dir : String) (ts : Tables) : List String → Attempt m Tables
  | [] => return ts
  | name :: rest => do
    let path := Files.join dir name
    let text ← Attempt.request path (FileAccess.read path)
    pushFiles dir (← MonadExcept.ofExcept (ts.pushDeclared path text)) rest

/-- The tables of the declaration files in a directory, in the order of the files' names. -/
def loadDir (dir : String) : Attempt m Tables := do
  let names ← Attempt.request dir (FileAccess.list dir)
  pushFiles dir .empty (declarationNames names)

/-- The name of the file that holds a stored schema. -/
def storedName : String := "tables.yaml"

/-- The schema that is stored in a directory. -/
def load (dir : String) : Attempt m Tables := do
  let path := Files.join dir storedName
  let text ← Attempt.request path (FileAccess.read path)
  MonadExcept.ofExcept (ofYaml text)

/-- Stores the schema in a directory, which is made if it is not there. -/
def save (dir : String) (ts : Tables) : Attempt m String := do
  Attempt.request dir (FileAccess.makeDirs dir)
  let path := Files.join dir storedName
  Attempt.request path (FileAccess.write path ts.toYaml)
  return path

end Tables

end Tablewright
