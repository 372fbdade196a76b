import Tablewright.Convention
import Tablewright.Schema.EntityType

/-! A table as the generators see it: its columns and its indexes in declaration order. -/

namespace Tablewright

structure Column where
  name : String
  /-- The type keyword in lower case. -/
  columnType : String
  entityType : EntityType
  /-- The first modifier of the type, zero if there is none. -/
  size : UInt64
  isAutoIncrement : Bool
  isUnsigned : Bool
  isNotNull : Bool
  /-- The literal default, if there is one and it is not null. -/
  defaultValue : Option String
  isPrimaryKey : Bool
  /-- The unique indexes that cover the column, other than the primary key. -/
  uniqueIndexKeys : List String
  /-- The other indexes that cover the column. -/
  indexKeys : List String
deriving Repr, DecidableEq

structure Index where
  name : String
  isPrimaryKey : Bool
  isUnique : Bool
  /-- The covered columns in the order of the key. -/
  columns : List String
deriving Repr, DecidableEq

structure Table where
  /-- The name without a qualifier. -/
  name : String
  columns : List Column
  indexes : List Index
  isReadOnly : Bool
deriving Repr, DecidableEq

namespace Table

def column? (t : Table) (name : String) : Option Column := t.columns.find? (·.name = name)

def hasColumn (t : Table) (name : String) : Bool := (t.column? name).isSome

/-- The index that is the primary key. -/
def primaryKey? (t : Table) : Option Index := t.indexes.find? (·.isPrimaryKey)

/-- The column that the primary key covers. -/
def primaryKeyColumn? (t : Table) : Option Column := t.columns.find? (·.isPrimaryKey)

def convention (t : Table) : Convention := .ofTable t.name

end Table

end Tablewright
