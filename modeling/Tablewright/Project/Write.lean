import Tablewright.Code.File
import Tablewright.Dao.Source
import Tablewright.Entity.Source
import Tablewright.Model.Source
import Tablewright.Project.Load
import Tablewright.Project.Name
import Tablewright.Report

/-! The files of a project. Each kind of source has a directory of its own under the root, with a
file for every table. Writing stops at the first failure, and gives the paths that it wrote. -/

namespace Tablewright.Project

open Code

variable {m : Type → Type} [Monad m] [FileAccess m]

/-- Writes a file into a directory, which is made if it is not there. -/
def writeOutput (dir name text : String) : Attempt m String := do
  MonadExcept.ofExcept (checkName name)
  Attempt.request dir (FileAccess.makeDirs dir)
  let path := Files.join dir name
  Attempt.request path (FileAccess.write path text)
  return path

/-- The name of the source file with the given stem. -/
def sourceName (stem : String) : String := stem ++ ".go"

def writeSource (dir stem : String) (file : SourceFile) : Attempt m String :=
  writeOutput dir (sourceName stem) file.render

def schemaDir : String := "schema"

def reportName : String := "report.md"

def registryStem : String := "structables"

def writeSchema (root : String) (ts : Tables) : Attempt m String :=
  ts.save (Files.join root schemaDir)

/-- The entities, and their registry after them. -/
def writeEntities (root : String) (ts : Tables) (target : Target) : Attempt m (List String) := do
  let dir := Files.join root entityPackage
  let entities := ts.toList.map Entity.ofTable
  let written ← entities.mapM fun e => writeSource dir e.tableName (e.source target)
  let registry ← writeSource dir registryStem (Entity.registrySource entities target)
  return written ++ [registry]

def writeDaos (root : String) (ts : Tables) (target : Target) : Attempt m (List String) :=
  ts.toList.mapM fun t => do
    let dao ← Attempt.ofSchema (Dao.ofTable t)
    writeSource (Files.join root daoPackage) t.name (dao.source target)

def writeModels (root : String) (ts : Tables) (target : Target) : Attempt m (List String) :=
  ts.toList.mapM fun t => do
    let model ← Attempt.ofSchema (Model.ofTable t)
    writeSource (Files.join root modelPackage) t.name (model.source target)

def writeReport (root : String) (ts : Tables) : Attempt m String :=
  writeOutput root reportName (Report.render ts)

/-- Everything that is generated from tables, the schema first and the report last. -/
def writeAll (root : String) (ts : Tables) (target : Target) : Attempt m (List String) := do
  let schema ← writeSchema root ts
  let entities ← writeEntities root ts target
  let daos ← writeDaos root ts target
  let models ← writeModels root ts target
  let report ← writeReport root ts
  return [schema] ++ entities ++ daos ++ models ++ [report]

end Tablewright.Project
