/-! What a program may ask of a file system. The loaders and writers are generic in who answers: the
machine's own files, or a `FileTree`. -/

namespace Tablewright

/-- Why a request failed. -/
inductive Fault
  | notFound
  /-- There is a file where a directory should be made. -/
  | exists
  /-- The path leads through a file. -/
  | notDirectory
  | isDirectory
  /-- The bytes are not text. -/
  | notText
  | other (reason : String)
deriving Repr, DecidableEq

namespace Fault

def message : Fault → String
  | .notFound => "No such file or directory (os error 2)"
  | .exists => "File exists (os error 17)"
  | .notDirectory => "Not a directory (os error 20)"
  | .isDirectory => "Is a directory (os error 21)"
  | .notText => "stream did not contain valid UTF-8"
  | .other reason => reason

end Fault

/-- Requests to a file system. -/
class FileAccess (m : Type → Type) where
  /-- The names in a directory, in any order. -/
  list (path : String) : m (Except Fault (List String))
  /-- The text of a file. -/
  read (path : String) : m (Except Fault String)
  /-- Makes a directory and those above it, unless they are there. -/
  makeDirs (path : String) : m (Except Fault Unit)
  /-- Makes the file hold just this text. -/
  write (path text : String) : m (Except Fault Unit)

end Tablewright
