import Tablewright.Schema.Tables
import Tablewright.Yaml.Grammar
import Tablewright.Yaml.Print

/-! Tables as stored text. Every field is written. Reading ignores fields that it does not know, and
fills in the few that may be missing. -/

namespace Tablewright

open Yaml

/-! ### Writing -/

namespace Column

def value (c : Column) : Value := .record [
  ("name", .text c.name),
  ("column_type", .text c.columnType),
  ("entity_type", .text c.entityType.name),
  ("size", .number c.size.toNat),
  ("is_auto_increment", .flag c.isAutoIncrement),
  ("is_unsigned", .flag c.isUnsigned),
  ("is_not_null", .flag c.isNotNull),
  ("default_value", .optionalText c.defaultValue),
  ("is_primary_key", .flag c.isPrimaryKey),
  ("unique_index_keys", .texts c.uniqueIndexKeys),
  ("index_keys", .texts c.indexKeys)]

end Column

namespace Index

def value (i : Index) : Value := .record [
  ("name", .text i.name),
  ("is_primary_key", .flag i.isPrimaryKey),
  ("is_unique", .flag i.isUnique),
  ("columns", .texts i.columns)]

end Index

namespace Table

def value (t : Table) : Value := .record [
  ("name", .text t.name),
  ("columns", .list (t.columns.map Column.value)),
  ("indexes", .list (t.indexes.map Index.value)),
  ("is_read_only", .flag t.isReadOnly)]

end Table

def Tables.toYaml (ts : Tables) : String := Value.yamlList (ts.toList.map Table.value)

/-! ### Reading -/

namespace Yaml.Node

/-- The text of any scalar. -/
def text? : Node → Option String
  | .scalar _ text => some text
  | _ => none

/-- The text of a scalar, or none if the scalar stands for no value. -/
def optionalText? : Node → Option (Option String)
  | .scalar .plain text => some (if Plain.isNull text then none else some text)
  | .scalar _ text => some (some text)
  | _ => none

def flag? : Node → Option Bool
  | .scalar .plain text => Plain.flag? text
  | _ => none

def word64? : Node → Option UInt64
  | .scalar .plain text =>
    match Plain.natural? text.toList with
    | some n => if n < UInt64.size then some (.ofNat n) else none
    | none => none
  | _ => none

/-- The items of a sequence. A place where nothing is written has none. -/
def items? : Node → Option (List Node)
  | .sequence items => some items
  | .scalar .plain "" => some []
  | _ => none

def list? (item? : Node → Option α) (node : Node) : Option (List α) := do
  (← node.items?).mapM item?

/-- The entries of a mapping by the text of their keys. -/
def fields? : Node → Option (List (String × Node))
  | .mapping entries => entries.mapM fun (key, value) => key.text?.map fun name => (name, value)
  | _ => none

/-- The fields of a mapping, if none of the known ones is given twice. -/
def record? (known : List String) (node : Node) : Option (List (String × Node)) := do
  let fields ← node.fields?
  if known.all fun name => (fields.filter (·.1 == name)).length ≤ 1 then some fields else none

/-- A field that must be there. -/
def field? (read? : Node → Option α) (name : String) (fields : List (String × Node)) : Option α := do
  read? (← fields.lookup name)

/-- A field that may be missing. -/
def fieldOr? (missing : α) (read? : Node → Option α) (name : String)
    (fields : List (String × Node)) : Option α :=
  match fields.lookup name with
  | some node => read? node
  | none => some missing

def entityType? (node : Node) : Option EntityType := do EntityType.ofName? (← node.text?)

def column? (node : Node) : Option Column := do
  let fields ← node.record? ["name", "column_type", "entity_type", "size", "is_auto_increment",
    "is_unsigned", "is_not_null", "default_value", "is_primary_key", "unique_index_keys",
    "index_keys"]
  return {
    name := ← field? text? "name" fields
    columnType := ← field? text? "column_type" fields
    entityType := ← field? entityType? "entity_type" fields
    size := ← field? word64? "size" fields
    isAutoIncrement := ← field? flag? "is_auto_increment" fields
    isUnsigned := ← field? flag? "is_unsigned" fields
    isNotNull := ← field? flag? "is_not_null" fields
    defaultValue := ← fieldOr? none optionalText? "default_value" fields
    isPrimaryKey := ← field? flag? "is_primary_key" fields
    uniqueIndexKeys := ← fieldOr? [] (list? text?) "unique_index_keys" fields
    indexKeys := ← fieldOr? [] (list? text?) "index_keys" fields }

def index? (node : Node) : Option Index := do
  let fields ← node.record? ["name", "is_primary_key", "is_unique", "columns"]
  return {
    name := ← field? text? "name" fields
    isPrimaryKey := ← field? flag? "is_primary_key" fields
    isUnique := ← field? flag? "is_unique" fields
    columns := ← field? (list? text?) "columns" fields }

def table? (node : Node) : Option Table := do
  let fields ← node.record? ["name", "columns", "indexes", "is_read_only"]
  return {
    name := ← field? text? "name" fields
    columns := ← field? (list? column?) "columns" fields
    indexes := ← field? (list? index?) "indexes" fields
    isReadOnly := ← field? flag? "is_read_only" fields }

end Yaml.Node

/-- The tables that a text holds, whatever their flags say. -/
def Tables.parseYaml? (text : String) : Option Tables := do
  let tables ← (← Node.ofText? text).list? Node.table?
  return ⟨tables⟩

end Tablewright
