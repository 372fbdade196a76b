import Tablewright.Names
import Tablewright.Schema.Table

/-! The record type of a table: one field for every column, in declaration order. -/

namespace Tablewright

structure EntityField where
  name : String
  column : String
  entityType : EntityType
  /-- The name in serialized form. Only records that are just read have one. -/
  serialName : Option String
  isPrimaryKey : Bool
deriving Repr, DecidableEq

structure Entity where
  /-- The type of one row. -/
  name : String
  /-- The type of many rows. -/
  collectionName : String
  tableName : String
  isReadOnly : Bool
  fields : List EntityField
deriving Repr, DecidableEq

namespace Entity

def field (isReadOnly : Bool) (c : Column) : EntityField :=
  { name := Names.field c.name
    column := c.name
    entityType := c.entityType
    serialName := if isReadOnly then some (Names.serial c.name) else none
    isPrimaryKey := c.isPrimaryKey }

def ofTable (t : Table) : Entity :=
  let isReadOnly := t.convention.isReadOnly
  { name := Names.entity t.name
    collectionName := Names.collection t.name
    tableName := t.name
    isReadOnly
    fields := t.columns.map (field isReadOnly) }

def primaryKey? (e : Entity) : Option EntityField := e.fields.find? (·.isPrimaryKey)

theorem names_fields_ofTable (t : Table) :
    (ofTable t).fields.map (·.name) = t.columns.map fun c => Names.field c.name := by
  simp only [ofTable, List.map_map, Function.comp_def, field]

theorem primaryKey?_ofTable (t : Table) :
    (ofTable t).primaryKey? = t.primaryKeyColumn?.map (field t.convention.isReadOnly) := by
  unfold primaryKey? ofTable
  rw [List.find?_map]
  rfl

end Entity

end Tablewright
