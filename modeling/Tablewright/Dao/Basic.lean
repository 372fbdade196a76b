import Tablewright.Finder
import Tablewright.Schema.Error

/-! The data access of a table: its lookups, and for a table that is not just read how its rows are
saved and deleted. -/

namespace Tablewright

/-- A field of the entity that generated code touches. -/
structure DaoField where
  name : String
  column : String
  entityType : EntityType
deriving Repr, DecidableEq

structure Dao where
  /-- The name of the interface, which is the entity's. -/
  name : String
  collectionName : String
  tableName : String
  convention : Convention
  primaryKey : DaoField
  /-- What an update writes, in column order. -/
  updateFields : List DaoField
  /-- Saving stamps the creation time of a new row. -/
  setsCreatedAt : Bool
  /-- Saving stamps the time of the update. -/
  setsUpdatedAt : Bool
  /-- Saving assigns the owner of a new row. -/
  setsUserId : Bool
  /-- The current user is known. -/
  hasUserIdGetter : Bool
  methods : List Finder
deriving Repr, DecidableEq

namespace Dao

def field (c : Column) : DaoField := ⟨Names.field c.name, c.name, c.entityType⟩

/-- Whether the table has a column of this name that holds a point in time. -/
def hasTimestamp (t : Table) (column : String) : Bool :=
  (t.column? column).any (·.entityType == .timestamp)

def isUpdated (c : Column) : Bool := !c.isPrimaryKey && !isUpdateExcluded c.name

/-- The data access of a table, which needs a primary key. -/
def ofTable (t : Table) : Except SchemaError Dao :=
  match t.primaryKeyColumn? with
  | none => .error (.missingPrimaryKey t.name)
  | some primary =>
    let convention := t.convention
    let methods := t.finders
    .ok {
      name := Names.entity t.name
      collectionName := Names.collection t.name
      tableName := t.name
      convention
      primaryKey := field primary
      updateFields := (t.columns.filter isUpdated).map field
      setsCreatedAt := hasTimestamp t createdAtColumn
      setsUpdatedAt := hasTimestamp t updatedAtColumn
      setsUserId := convention.isUserScoped && t.hasColumn userIdColumn
      hasUserIdGetter := convention.isUserScoped || methods.any (·.isUserScoped)
      methods }

def isReadOnly (d : Dao) : Bool := d.convention.isReadOnly

/-- The names of the methods in the order of the interface. -/
def methodNames (d : Dao) : List String :=
  (if d.isReadOnly then ["FindsAll"] else ["Save", "Delete"]) ++ d.methods.map (·.name)

/-- The type that implements the interface. -/
def implName (d : Dao) : String := d.name ++ "Impl"

end Dao

end Tablewright
