import Tablewright.Command.Arguments
import Tablewright.Description
import Tablewright.Project.Write
import Tablewright.Value.Json

/-! One run of the command. The schema mode reads declarations and stores them. The others start
from what it stored, so that generating never depends on the declarations. -/

namespace Tablewright.Command

open Project

variable {m : Type → Type} [Monad m] [FileAccess m]

/-- The tables that a run works on. -/
def tablesOf (s : Settings) : Attempt m Tables :=
  match s.mode with
  | .schema => Tables.loadDir s.sqlDir
  | _ => Tables.load (Files.join s.outputDir schemaDir)

/-- The text of descriptions. -/
def describe (values : List Value) : String := Value.json 0 (.list values) ++ "\n"

/-- The descriptions of what a mode generates. The modes that generate one file have none. -/
def descriptions? (mode : Mode) (ts : Tables) : Option (Except SchemaError (List Value)) :=
  match mode with
  | .entity => some (.ok (ts.toList.map fun t => (Entity.ofTable t).value))
  | .dao => some (ts.toList.mapM fun t => (Dao.ofTable t).map Dao.value)
  | .model => some (ts.toList.mapM fun t => (Model.ofTable t).map Model.value)
  | .schema | .report => none

/-- Writes what a mode generates. -/
def generate (s : Settings) (ts : Tables) : Attempt m (List String) :=
  match s.mode with
  | .schema => return [← writeSchema s.outputDir ts]
  | .entity => writeEntities s.outputDir ts s.target
  | .dao => writeDaos s.outputDir ts s.target
  | .model => writeModels s.outputDir ts s.target
  | .report => return [← writeReport s.outputDir ts]

/-- Does what the settings say, and gives what is to be printed. -/
def perform (s : Settings) : Attempt m String := do
  let ts ← tablesOf s
  match if s.describes then descriptions? s.mode ts else none with
  | some descriptions => return describe (← Attempt.ofSchema descriptions)
  | none => do
    let _ ← generate s ts
    return ""

/-- What a run leaves besides files. -/
structure Outcome where
  exitCode : UInt32
  stdout : String
  stderr : String
deriving Repr, DecidableEq

/-- The exit code of a run that fails. -/
def failureCode : UInt32 := 2

/-- Runs the command. -/
def run (args : List String) : m Outcome :=
  match Settings.ofArguments args with
  | .error fault => return ⟨failureCode, "", fault.message ++ "\n"⟩
  | .ok settings => do
    match ← (perform settings).run with
    | .ok stdout => return ⟨0, stdout, ""⟩
    | .error e => return ⟨failureCode, "", "Error: " ++ e.message ++ "\n"⟩

end Tablewright.Command
