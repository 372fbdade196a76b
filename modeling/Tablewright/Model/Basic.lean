import Tablewright.Finder
import Tablewright.Schema.Error

/-! The model of a table: wrappers around its entities, and a collection in memory that can be
filtered, sorted and plucked by column. -/

namespace Tablewright

/-- How the values of a column are ordered. -/
inductive SortOrder
  /-- Numbers and strings. -/
  | natural
  /-- Points in time, the earlier first. -/
  | chronological
  /-- Flags, the unset first. -/
  | boolean
deriving Repr, DecidableEq

def SortOrder.name : SortOrder → String
  | .natural => "natural"
  | .chronological => "chronological"
  | .boolean => "boolean"

/-- The order of a column's values, if they have one. -/
def EntityType.sortOrder? : EntityType → Option SortOrder
  | .timestamp => some .chronological
  | .bool => some .boolean
  | t => if t.isComparable then some .natural else none

structure ModelColumn where
  column : String
  field : String
  /-- The name of the helper that plucks the column. -/
  pluralField : String
  entityType : EntityType
  filterable : Bool
  sort : Option SortOrder
deriving Repr, DecidableEq

namespace ModelColumn

def ofColumn (c : Column) : ModelColumn :=
  { column := c.name
    field := Names.field c.name
    pluralField := Names.pluralField c.name
    entityType := c.entityType
    filterable := c.entityType.isComparable
    sort := c.entityType.sortOrder? }

def filterName (c : ModelColumn) : String := "FilterBy" ++ c.field

def sortName (c : ModelColumn) : String := "SortBy" ++ c.field

/-- The helpers of a column in the order in which they are declared. -/
def methodNames (c : ModelColumn) : List String :=
  (if c.filterable then [c.filterName] else []) ++ (if c.sort.isSome then [c.sortName] else []) ++
    [c.pluralField]

end ModelColumn

structure Model where
  /-- The name of the entity. -/
  name : String
  collectionName : String
  /-- The field that holds the data access. -/
  daoField : String
  /-- Instances of a model that is just read hold no data access. -/
  isReadOnly : Bool
  primaryKey : ModelColumn
  columns : List ModelColumn
  /-- The lookups that are forwarded to the data access. -/
  finders : List Finder
deriving Repr, DecidableEq

namespace Model

/-- The model of a table, which needs a primary key. -/
def ofTable (t : Table) : Except SchemaError Model :=
  match t.primaryKeyColumn? with
  | none => .error (.missingPrimaryKey t.name)
  | some primary =>
    .ok {
      name := Names.entity t.name
      collectionName := Names.collection t.name
      daoField := Names.daoField t.name
      isReadOnly := t.convention.isReadOnly
      primaryKey := .ofColumn primary
      columns := t.columns.map .ofColumn
      finders := t.finders }

/-- The type that wraps one entity. -/
def instanceName (m : Model) : String := m.name ++ "Instance"

/-- The type of a collection in memory. -/
def collectionInstanceName (m : Model) : String := m.collectionName ++ "Instance"

def implName (m : Model) : String := m.name ++ "Impl"

/-- The methods of a collection in memory, in the order in which they are declared. -/
def collectionMethodNames (m : Model) : List String :=
  ["Add", "FindBy" ++ m.primaryKey.field, "FilterBy", "Each", "EachWithError", "First", "At", "Len",
    "IsEmpty"] ++
    m.columns.flatMap (·.methodNames) ++ (if m.isReadOnly then [] else ["Save"])

end Model

end Tablewright
