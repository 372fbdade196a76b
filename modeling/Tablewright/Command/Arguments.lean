import Tablewright.Files.Path
import Tablewright.Target

/-! The arguments of the command line: one mode, and options on either side of it. An option may be
given once on each side, and the one after the mode counts. -/

namespace Tablewright.Command

inductive Mode
  /-- From declarations to the stored schema. -/
  | schema
  | entity
  | dao
  | model
  | report
deriving Repr, DecidableEq

namespace Mode

def all : List Mode := [.schema, .entity, .dao, .model, .report]

def name : Mode → String
  | .schema => "schema"
  | .entity => "entity"
  | .dao => "dao"
  | .model => "model"
  | .report => "report"

def ofName? (s : String) : Option Mode := all.find? (·.name == s)

end Mode

/-- Options whose values are paths, and so not empty. -/
def pathOptions : List String := ["root", "sql-dir", "output-dir"]

def textOptions : List String := ["module", "rapidash-path", "errors-path"]

/-- Options without a value. -/
def flagOptions : List String := ["json", "verbose"]

/-- Names and values of the options that were given. A flag has the empty value. -/
abbrev Given := List (String × String)

namespace Given

/-- Adds an option that was not given before. -/
def add? (given : Given) (name value : String) : Option Given :=
  if (given.lookup name).isSome || (pathOptions.contains name && value == "") then none
  else some ((name, value) :: given)

end Given

/-- The name of an option and the value attached to it with an equals sign, if the word is an
option. -/
def option? (word : String) : Option (String × Option String) :=
  match word.toList with
  | '-' :: '-' :: cs =>
    let value := match cs.dropWhile (· != '=') with
      | [] => none
      | _ :: value => some (String.ofList value)
    some (.ofList (cs.takeWhile (· != '=')), value)
  | _ => none

/-- Whether the word can be the value of the option before it. -/
def isValue (word : String) : Bool := word == "-" || word.toList.head? != some '-'

/-- Reads options up to a word that is none, or fails. Two dashes alone end the options, and nothing
may follow them. -/
def readOptions (given : Given) : List String → Option (Given × List String)
  | [] => some (given, [])
  | word :: rest =>
    if word = "--" then if rest.isEmpty then some (given, []) else none
    else match option? word with
      | none => if isValue word then some (given, word :: rest) else none
      | some (name, value) =>
        if flagOptions.contains name then
          if value.isSome then none
          else match given.add? name "" with
            | some given => readOptions given rest
            | none => none
        else if (pathOptions ++ textOptions).contains name then
          match value, rest with
          | some value, rest =>
            match given.add? name value with
            | some given => readOptions given rest
            | none => none
          | none, value :: rest =>
            if isValue value then
              match given.add? name value with
              | some given => readOptions given rest
              | none => none
            else none
          | none, [] => none
        else none

/-- The mode, and the options in the order in which they count. -/
def readArguments (args : List String) : Option (Mode × Given) := do
  let (before, rest) ← readOptions [] args
  match rest with
  | [] => none
  | word :: rest =>
    let mode ← Mode.ofName? word
    match ← readOptions [] rest with
    | (after, []) => some (mode, after ++ before)
    | _ => none

/-- What a run is to do. -/
structure Settings where
  mode : Mode
  sqlDir : String
  outputDir : String
  /-- Describe what would be generated, and write nothing. -/
  describes : Bool
  target : Target
deriving Repr, DecidableEq

inductive UsageFault
  | malformed
  | missingRoot
  | missingModule
deriving Repr, DecidableEq

def UsageFault.message : UsageFault → String
  | .malformed => "error: the arguments are not understood"
  | .missingRoot => "--root is required"
  | .missingModule => "--module is required for the dao and model modes"

/-- The settings that options ask for. What is not given is found under the root. -/
def Settings.ofGiven (mode : Mode) (given : Given) : Except UsageFault Settings :=
  match given.lookup "root" with
  | none => .error .missingRoot
  | some root =>
    let module? := given.lookup "module"
    if (mode = .dao || mode = .model) && module?.isNone then .error .missingModule
    else
      let base := Target.ofModule (module?.getD "")
      .ok {
        mode
        sqlDir := (given.lookup "sql-dir").getD (Files.join root "sql")
        outputDir := (given.lookup "output-dir").getD root
        describes := (given.lookup "json").isSome
        target := { base with
          rapidashPath := (given.lookup "rapidash-path").getD base.rapidashPath
          errorsPath := (given.lookup "errors-path").getD base.errorsPath } }

def Settings.ofArguments (args : List String) : Except UsageFault Settings :=
  match readArguments args with
  | none => .error .malformed
  | some (mode, given) => Settings.ofGiven mode given

end Tablewright.Command
