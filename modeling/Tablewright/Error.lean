import Tablewright.Files.Access
import Tablewright.Schema.Error

/-! What can go wrong between the files and the generated sources. -/

namespace Tablewright

/-- Why a name cannot be that of an output file. -/
inductive NameFault
  | blank
  | absolute
  | traversal
  | separator
deriving Repr, DecidableEq

inductive Error
  | schema (e : SchemaError)
  /-- A declaration file is at fault. -/
  | table (path : String) (e : SchemaError)
  /-- A request to the file system failed. -/
  | file (path : String) (fault : Fault)
  /-- A stored schema is malformed. -/
  | stored
  | outputName (name : String) (fault : NameFault)
deriving Repr, DecidableEq

namespace NameFault

def reason : NameFault → String
  | .blank => "must not be empty"
  | .absolute => "absolute paths are not allowed"
  | .traversal => "traversal segments are not allowed"
  | .separator => "path separators are not allowed"

end NameFault

namespace Error

def message : Error → String
  | .schema e => e.message
  | .table path e => path ++ ": " ++ e.message
  | .file path fault => path ++ ": " ++ fault.message
  | .stored => "YAML error: the text does not hold a list of tables"
  | .outputName name fault => "invalid output name '" ++ name ++ "': " ++ fault.reason

end Error

/-- An action on a file system that may fail. -/
abbrev Attempt (m : Type → Type) := ExceptT Error m

namespace Attempt

variable {m : Type → Type} [Monad m]

/-- A request about a path. Its failure is the failure of the action. -/
def request (path : String) (answer : m (Except Fault α)) : Attempt m α := do
  match ← (answer : m _) with
  | .ok a => return a
  | .error fault => throw (.file path fault)

/-- What a step gives that concerns schemas only. -/
def ofSchema (step : Except SchemaError α) : Attempt m α :=
  MonadExcept.ofExcept (step.mapError .schema)

end Attempt

end Tablewright
