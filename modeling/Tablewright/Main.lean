import Tablewright.Command.Run

/-! The program on the machine's own files. -/

namespace Tablewright

/-- Whether an error has the code `n`. Some requests give codes negated. -/
def hasCode (n code : UInt32) : Bool := code == n || code == 0 - n

/-- The fault that an error of the operating system stands for. -/
def Fault.ofSystem (e : IO.Error) : Fault :=
  match e with
  | .noFileOrDirectory _ _ _ => .notFound
  | .alreadyExists _ _ _ => .exists
  | .inappropriateType _ code _ =>
    if hasCode 20 code then .notDirectory else if hasCode 21 code then .isDirectory
    else .other (toString e)
  | e => .other (toString e)

/-- Runs a request, and turns its errors into faults. -/
def answering (action : IO α) : IO (Except Fault α) := do
  try return .ok (← action)
  catch e => return .error (.ofSystem e)

/-- The text of a file of the machine. -/
def readText (path : String) : IO (Except Fault String) := do
  match ← answering (IO.FS.readBinFile path) with
  | .error fault => return .error fault
  | .ok bytes =>
    match String.fromUTF8? bytes with
    | some text => return .ok text
    | none => return .error .notText

/-- The names in a directory of the machine. -/
def listNames (path : String) : IO (List String) := do
  let dir ← IO.FS.realPath path
  return (← dir.readDir).toList.map (·.fileName)

instance : FileAccess IO where
  list path := answering (listNames path)
  read := readText
  makeDirs path := answering (IO.FS.createDirAll path)
  write path text := answering (IO.FS.writeFile path text)

end Tablewright

open Tablewright in
/-- Runs the command with the given arguments. -/
def main (args : List String) : IO UInt32 := do
  let outcome ← (Command.run args : IO Command.Outcome)
  IO.print outcome.stdout
  IO.eprint outcome.stderr
  return outcome.exitCode
