/-! What a table's name says about access to it. Tables named `user_…` belong to users row by row,
`users` itself is mutable, and every other table holds master data that is only read. -/

namespace Tablewright

inductive Convention
  /-- Master data: bulk reads and lookups only. -/
  | readOnly
  /-- The table of users: rows are created, updated and deleted. -/
  | mutable
  /-- Mutable, and every row is owned by one user. -/
  | userScoped
deriving Repr, DecidableEq

namespace Convention

def ofTable (table : String) : Convention :=
  if "user_".toList.isPrefixOf table.toList then .userScoped
  else if table = "users" then .mutable
  else .readOnly

def isReadOnly (c : Convention) : Bool := c == .readOnly

def isUserScoped (c : Convention) : Bool := c == .userScoped

def name : Convention → String
  | .readOnly => "read_only"
  | .mutable => "mutable"
  | .userScoped => "user_scoped"

end Convention

/-- The column that names the owner of a row. -/
def userIdColumn : String := "user_id"

def idColumn : String := "id"

def createdAtColumn : String := "created_at"

def updatedAtColumn : String := "updated_at"

def isReadOnlyTable (table : String) : Bool := (Convention.ofTable table).isReadOnly

/-- Columns that an update never writes: identity, creation time and owner. -/
def isUpdateExcluded (column : String) : Bool :=
  column = idColumn || column = createdAtColumn || column = userIdColumn

end Tablewright
