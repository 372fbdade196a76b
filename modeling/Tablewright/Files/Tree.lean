import Tablewright.Files.Access
import Tablewright.Text.Split

/-! A file system as a value. Requests change a `FileTree` as they would change the machine's files.
-/

namespace Tablewright

/-- What is at a location. -/
inductive Entry
  | dir
  | file (text : String)
  /-- A file whose bytes are not text. -/
  | binary (bytes : ByteArray)

/-- A location: the names from the root down. -/
abbrev Location := List String

structure FileTree where
  entries : List (Location × Entry)

namespace FileTree

def empty : FileTree := ⟨[]⟩

/-- What is at a location. The root is a directory. -/
def get? (fs : FileTree) : Location → Option Entry
  | [] => some .dir
  | loc => fs.entries.lookup loc

def putIn (loc : Location) (entry : Entry) :
    List (Location × Entry) → List (Location × Entry)
  | [] => [(loc, entry)]
  | (other, e) :: rest =>
    if other = loc then (loc, entry) :: rest else (other, e) :: putIn loc entry rest

/-- Puts an entry at a location, in the place of what was there. -/
def put (fs : FileTree) (loc : Location) (entry : Entry) : FileTree := ⟨putIn loc entry fs.entries⟩

theorem lookup_putIn (loc : Location) (entry : Entry) (entries : List (Location × Entry))
    (other : Location) :
    (putIn loc entry entries).lookup other =
      if other = loc then some entry else entries.lookup other := by
  induction entries with
  | nil =>
    by_cases h : other = loc
    · simp [putIn, h]
    · simp [putIn, List.lookup_cons, beq_false_of_ne h, h]
  | cons head rest ih =>
    obtain ⟨key, e⟩ := head
    by_cases hk : key = loc <;> by_cases h : other = loc <;> by_cases ho : other = key <;>
      simp_all [putIn, List.lookup_cons, beq_false_of_ne]

theorem get?_put {fs : FileTree} {loc : Location} (h : loc ≠ []) (entry : Entry)
    (other : Location) :
    (fs.put loc entry).get? other = if other = loc then some entry else fs.get? other := by
  cases other with
  | nil => simp [get?, Ne.symm h]
  | cons name rest => simp [get?, put, lookup_putIn]

/-- The names in a directory. -/
def names (fs : FileTree) (dir : Location) : List String :=
  fs.entries.filterMap fun (loc, _) => if loc.dropLast = dir then loc.getLast? else none

/-- The segments of a path. -/
def segments (path : String) : List String := (Text.splitAt (· == '/') path.toList).map .ofList

/-- Whether a segment stays where it is. -/
def isHere (segment : String) : Bool := segment == "" || segment == "."

/-- The location that segments lead to. All that they lead through must be directories. -/
def locate (fs : FileTree) (here : Location) : List String → Except Fault Location
  | [] => .ok here
  | segment :: rest =>
    match fs.get? here with
    | none => .error .notFound
    | some .dir =>
      if isHere segment then fs.locate here rest
      else if segment = ".." then fs.locate here.dropLast rest
      else fs.locate (here ++ [segment]) rest
    | some _ => .error .notDirectory

def list (fs : FileTree) (path : String) : Except Fault (List String) := do
  let dir ← fs.locate [] (segments path)
  match fs.get? dir with
  | none => throw .notFound
  | some .dir => return fs.names dir
  | some _ => throw .notDirectory

def read (fs : FileTree) (path : String) : Except Fault String := do
  match fs.get? (← fs.locate [] (segments path)) with
  | none => throw .notFound
  | some .dir => throw .isDirectory
  | some (.file text) => return text
  | some (.binary _) => throw .notText

/-- Makes the directories that segments lead through. -/
def makeDirsFrom (fs : FileTree) (here : Location) : List String → Except Fault FileTree
  | [] => .ok fs
  | segment :: rest =>
    if isHere segment then fs.makeDirsFrom here rest
    else if segment = ".." then fs.makeDirsFrom here.dropLast rest
    else
      let next := here ++ [segment]
      match fs.get? next with
      | some .dir => fs.makeDirsFrom next rest
      | some _ => .error (if rest.isEmpty then .exists else .notDirectory)
      | none => (fs.put next .dir).makeDirsFrom next rest

def makeDirs (fs : FileTree) (path : String) : Except Fault FileTree :=
  fs.makeDirsFrom [] (segments path)

def write (fs : FileTree) (path text : String) : Except Fault FileTree := do
  let loc ← fs.locate [] (segments path)
  match fs.get? loc with
  | some .dir => throw .isDirectory
  | _ => return fs.put loc (.file text)

/-- The answer to a request that changes the tree if it succeeds. -/
def changed (fs : FileTree) : Except Fault FileTree → Except Fault Unit × FileTree
  | .ok fs => (.ok (), fs)
  | .error fault => (.error fault, fs)

end FileTree

instance : FileAccess (StateM FileTree) where
  list path := fun fs => (fs.list path, fs)
  read path := fun fs => (fs.read path, fs)
  makeDirs path := fun fs => fs.changed (fs.makeDirs path)
  write path text := fun fs => fs.changed (fs.write path text)

end Tablewright
