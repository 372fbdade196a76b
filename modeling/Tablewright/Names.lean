import Tablewright.Noun.Inflection
import Tablewright.Text.Words

/-! The names that generated code gets from column and table names. -/

namespace Tablewright.Names

def pascal (name : String) : String := .ofList (Text.pascal name.toList)

def camel (name : String) : String := .ofList (Text.camel name.toList)

/-- Writes a final `Id` as the acronym `ID`. -/
def acronymId (name : String) : String :=
  if name.endsWith "Id" then .ofList (name.toList.take (name.length - 2) ++ ['I', 'D']) else name

/-- The field of a column: `other_user_id` is `OtherUserID`. -/
def field (column : String) : String := acronymId (pascal column)

/-- The plural of a column's field. An acronym takes a plain `s`: `OtherUserIDs`. -/
def pluralField (column : String) : String :=
  let name := field column
  if name.endsWith "ID" then name ++ "s" else acronymId (pascal (pluralOf column))

/-- The name of a column as a local: `open_at` is `openAt`. -/
def serial (column : String) : String := camel column

/-- The type of one row: `user_items` is `UserItem`. -/
def entity (table : String) : String := pascal (singularOf table)

/-- The type of many rows: `user_items` is `UserItems`. -/
def collection (table : String) : String := pascal table

/-- The field that holds a table's data access. -/
def daoField (table : String) : String := camel (singularOf table) ++ "Dao"

end Tablewright.Names
