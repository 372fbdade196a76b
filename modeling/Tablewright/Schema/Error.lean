/-! What can be wrong with a table declaration or a stored schema, and the words for it. -/

namespace Tablewright

inductive SchemaError
  /-- The text is not in the grammar. -/
  | malformed (detail : String)
  | notSingleStatement (count : Nat)
  | notCreateTable
  | missingPrimaryKey (table : String)
  /-- The primary key covers several columns, listed with commas. -/
  | compositePrimaryKey (table columns : String)
  | multiplePrimaryKeys (table : String)
  | singularTableName (table : String)
  | pluralColumnName (table column : String)
  /-- The first modifier of a column's type is neither blank nor a number. -/
  | invalidTypeModifier (column modifier : String)
  | duplicateColumn (table column : String)
  | unknownIndexColumn (table index column : String)
  /-- The stored flag contradicts the table's name. -/
  | staleReadOnlyFlag (table : String) (stored expected : Bool)
  | duplicateTable (table : String)
deriving Repr, DecidableEq

namespace SchemaError

def flagText (b : Bool) : String := if b then "true" else "false"

def message : SchemaError → String
  | .malformed detail => "SQL syntax error: " ++ detail
  | .notSingleStatement count => "expected exactly one statement, found " ++ toString count
  | .notCreateTable => "not a CREATE TABLE statement"
  | .missingPrimaryKey table => "table '" ++ table ++ "' needs a primary key"
  | .compositePrimaryKey table columns =>
    "table '" ++ table ++ "' has a composite primary key (" ++ columns ++ ")"
  | .multiplePrimaryKeys table => "table '" ++ table ++ "' declares more than one primary key"
  | .singularTableName table => "table name '" ++ table ++ "' is not plural"
  | .pluralColumnName table column =>
    "column '" ++ column ++ "' of table '" ++ table ++ "' is not singular"
  | .invalidTypeModifier column modifier =>
    "column '" ++ column ++ "' has a malformed type modifier '" ++ modifier ++ "'"
  | .duplicateColumn table column =>
    "column '" ++ column ++ "' of table '" ++ table ++ "' is declared twice"
  | .unknownIndexColumn table index column =>
    "index '" ++ index ++ "' of table '" ++ table ++ "' refers to unknown column '" ++ column ++ "'"
  | .staleReadOnlyFlag table stored expected =>
    "table '" ++ table ++ "' is stored with is_read_only: " ++ flagText stored ++
      ", but its name implies " ++ flagText expected
  | .duplicateTable table => "table '" ++ table ++ "' is declared twice"

end SchemaError

end Tablewright
