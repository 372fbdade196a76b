import Tablewright.Names
import Tablewright.Schema.Table
import Tablewright.Text.Split

/-! The lookups that a table's indexes offer. Every prefix of an index is a lookup by equality, and
a prefix of one column also a lookup by a sequence of values. The owner of a row is never an
argument: a lookup that covers `user_id` takes it from the current user. -/

namespace Tablewright

/-- What a lookup answers. -/
inductive Arity
  /-- At most one row. -/
  | single
  | collection
deriving Repr, DecidableEq

/-- How the arguments are compared with the columns. -/
inductive Lookup
  | eq
  /-- One sequence of values for one column. -/
  | among
deriving Repr, DecidableEq

structure FinderArg where
  name : String
  column : String
  /-- The type of one value. -/
  entityType : EntityType
  isSequence : Bool
deriving Repr, DecidableEq

structure Finder where
  name : String
  args : List FinderArg
  arity : Arity
  lookup : Lookup
  /-- All columns of the lookup in the order of the index, the owner's included. -/
  columns : List String
deriving Repr, DecidableEq

def Arity.name : Arity → String
  | .single => "single"
  | .collection => "collection"

def Lookup.name : Lookup → String
  | .eq => "eq"
  | .among => "in"

namespace Finder

def isUserScoped (f : Finder) : Bool := f.columns.contains userIdColumn

def returnsCollection (f : Finder) : Bool := f.arity == .collection

def isOwner (c : Column) : Bool := c.name = userIdColumn

/-- The arguments for the given columns, named by their position. -/
def argsFrom (position : Nat) : List Column → List FinderArg
  | [] => []
  | c :: rest =>
    ⟨"k" ++ toString position, c.name, c.entityType, false⟩ :: argsFrom (position + 1) rest

/-- The lookup of a prefix of an index by equality. `isWhole` says that the prefix is all of it. -/
def byPrefix (columns : List Column) (isUnique isWhole : Bool) : Finder :=
  let given := columns.filter (!isOwner ·)
  { name := "FindBy" ++ Text.join "And" (given.map fun c => Names.field c.name)
    args := argsFrom 0 given
    arity := if isUnique && isWhole then .single else .collection
    lookup := .eq
    columns := columns.map (·.name) }

/-- The lookup of one column by a sequence of values. -/
def bySequence (c : Column) : Finder :=
  { name := "FindBy" ++ Names.pluralField c.name
    args := [⟨"k0", c.name, c.entityType, true⟩]
    arity := .collection
    lookup := .among
    columns := [c.name] }

/-- The lookups of the prefixes that end inside `rest`, where `before` is the part of the index
before it. A prefix that ends with the owner gives none of its own. -/
def ofPrefixes (isUnique : Bool) (before : List Column) : List Column → List Finder
  | [] => []
  | c :: rest =>
    let columns := before ++ [c]
    let here :=
      if isOwner c then []
      else byPrefix columns isUnique rest.isEmpty :: (if before.isEmpty then [bySequence c] else [])
    here ++ ofPrefixes isUnique columns rest

/-- The columns of an index that the table has. -/
def indexColumns (t : Table) (index : Index) : List Column := index.columns.filterMap t.column?

/-- The lookups of one index. -/
def ofIndex (t : Table) (index : Index) : List Finder :=
  ofPrefixes index.isUnique [] (indexColumns t index)

/-- The lookup of the current user's rows. It is single if there is one row for a user. -/
def ofOwner (t : Table) : Finder :=
  { name := "Find"
    args := []
    arity :=
      if t.indexes.any fun i => i.isUnique && i.columns = [userIdColumn] then .single
      else .collection
    lookup := .eq
    columns := [userIdColumn] }

/-- All lookups of a table before names are made unique. -/
def candidates (t : Table) : List Finder :=
  (if t.convention.isUserScoped then [ofOwner t] else []) ++ t.indexes.flatMap (ofIndex t)

/-- The finders whose names are not in `seen` and do not come again: of each name, the first. -/
def firstOfEachName (seen : List String) : List Finder → List Finder
  | [] => []
  | f :: rest =>
    if seen.contains f.name then firstOfEachName seen rest
    else f :: firstOfEachName (f.name :: seen) rest

end Finder

/-- The lookups of a table. Of two with the same name the first counts. -/
def Table.finders (t : Table) : List Finder := Finder.firstOfEachName [] (Finder.candidates t)

end Tablewright
