import Tablewright.Names
import Tablewright.Schema.ColumnType
import Tablewright.Schema.Table
import Tablewright.Sql.Grammar.Statement

/-! From a `CREATE TABLE` statement to a table. The rules are checked in a fixed order, and the
first that is broken is the error: the table's name, the columns of the indexes, the primary key,
and then the columns one by one. -/

namespace Tablewright

open Sql

namespace Declaration

def relation (create : CreateTable) : String :=
  .ofList (relationName create.name.render.toList)

/-- The column that an index names. -/
def indexColumn (id : Identifier) : String := .ofList (indexColumnName id.render.toList)

def primaryIndexName : String := "PRIMARY"

/-- The index that a column option declares. -/
def inlineIndex? (column : String) : ColumnOption → Option Index
  | .primaryKey => some ⟨primaryIndexName, true, true, [column]⟩
  | .unique => some ⟨column, false, true, [column]⟩
  | _ => none

/-- The indexes that the options of the columns declare. -/
def inlineIndexes (create : CreateTable) : List Index :=
  create.columns.flatMap fun c => c.options.filterMap (inlineIndex? c.name.text)

/-- The name that is given, or else the first of the columns. -/
def nameOrFirst (name : Option Identifier) (columns : List String) : String :=
  match name with
  | some id => id.text
  | none => columns.head?.getD ""

/-- The index that a constraint declares. References, conditions and full-text indexes declare
none. -/
def constraintIndex? : TableConstraint → Option Index
  | .primaryKey columns => some ⟨primaryIndexName, true, true, columns.map indexColumn⟩
  | .unique constraint index columns =>
    let columns := columns.map indexColumn
    some ⟨nameOrFirst (index.or constraint) columns, false, true, columns⟩
  | .index name columns =>
    let columns := columns.map indexColumn
    some ⟨nameOrFirst name columns, false, false, columns⟩
  | .other => none

/-- All indexes of a table: those in its columns before those in its constraints. -/
def indexes (create : CreateTable) : List Index :=
  inlineIndexes create ++ create.constraints.filterMap constraintIndex?

def columnNames (create : CreateTable) : List String := create.columns.map (·.name.text)

/-- Checks one column of an index. -/
def checkIndexColumn (table index : String) (declared : List String) (column : String) :
    Except SchemaError Unit :=
  if isPlural column then .error (.pluralColumnName table column)
  else if declared.contains column then .ok ()
  else .error (.unknownIndexColumn table index column)

def checkIndexColumns (table : String) (declared : List String) (indexes : List Index) :
    Except SchemaError Unit :=
  indexes.forM fun index => index.columns.forM (checkIndexColumn table index.name declared)

/-- There is one primary key, and it covers one column. -/
def checkPrimaryKey (table : String) (indexes : List Index) : Except SchemaError Unit :=
  match indexes.filter (·.isPrimaryKey) with
  | [] => .error (.missingPrimaryKey table)
  | [primary] =>
    if primary.columns.length > 1 then
      .error (.compositePrimaryKey table (Text.join ", " primary.columns))
    else .ok ()
  | _ :: _ :: _ => .error (.multiplePrimaryKeys table)

/-- The indexes that cover a column, each once for every time that it lists the column. -/
def owners (indexes : List Index) (column : String) : List Index :=
  indexes.flatMap fun index => (index.columns.filter (· = column)).map fun _ => index

/-- The last of the default values. -/
def lastDefault (options : List ColumnOption) : Option String :=
  (options.reverse.findSome? fun option => match option with
    | .default value => some value.literalValue?
    | _ => none).join

def isNotNull : ColumnOption → Bool
  | .notNull => true
  | _ => false

def isAutoIncrement : ColumnOption → Bool
  | .autoIncrement => true
  | _ => false

/-- The column of a definition, covered by the given indexes. -/
def column (definition : ColumnDefinition) (owning : List Index) : Except SchemaError Column :=
  let name := definition.name.text
  (ColumnType.parse definition.type.render name).map fun type => {
    name
    columnType := type.keyword
    entityType := .infer type.keyword type.size type.isUnsigned name
    size := type.size
    isAutoIncrement := definition.options.any isAutoIncrement
    isUnsigned := type.isUnsigned
    isNotNull := definition.options.any isNotNull
    defaultValue := lastDefault definition.options
    isPrimaryKey := owning.any (·.isPrimaryKey)
    uniqueIndexKeys := (owning.filter fun i => !i.isPrimaryKey && i.isUnique).map (·.name)
    indexKeys := (owning.filter fun i => !i.isPrimaryKey && !i.isUnique).map (·.name) }

/-- The columns of the definitions. `seen` holds the names of the columns before them. -/
def columns (table : String) (indexes : List Index) (seen : List String) :
    List ColumnDefinition → Except SchemaError (List Column)
  | [] => .ok []
  | definition :: rest =>
    let name := definition.name.text
    if seen.contains name then .error (.duplicateColumn table name)
    else do
      let first ← column definition (owners indexes name)
      let others ← columns table indexes (name :: seen) rest
      pure (first :: others)

end Declaration

namespace Table

open Declaration

/-- The table that a statement declares, if it keeps the rules. -/
def ofCreate (create : CreateTable) : Except SchemaError Table := do
  let name := relation create
  if isSingular name then throw (.singularTableName name)
  let indexes := Declaration.indexes create
  checkIndexColumns name (columnNames create) indexes
  checkPrimaryKey name indexes
  let columns ← Declaration.columns name indexes [] create.columns
  pure { name, columns, indexes, isReadOnly := isReadOnlyTable name }

end Table

/-- The one `CREATE TABLE` statement in a text. -/
def createTableOf (ddl : String) : Except SchemaError CreateTable :=
  match statements? ddl with
  | none => .error (.malformed "the text is outside the grammar")
  | some [.createTable create] => .ok create
  | some [.other] => .error .notCreateTable
  | some statements => .error (.notSingleStatement statements.length)

/-- The table that a text declares. -/
def Table.ofSql (ddl : String) : Except SchemaError Table := do
  Table.ofCreate (← createTableOf ddl)

end Tablewright
