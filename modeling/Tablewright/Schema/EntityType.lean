import Tablewright.Convention

/-! The value types of columns, free of any spelling. Everything generated from a column looks at
its `EntityType`; how the type was spelled in the declaration no longer matters. -/

namespace Tablewright

inductive EntityType
  | string
  | bool
  | int8
  | int16
  | int32
  | int64
  | uint8
  | uint16
  | uint32
  | uint64
  | float32
  | float64
  /-- A point in time that may be absent. -/
  | timestamp
  | bytes
  /-- The members of a set. -/
  | strings
deriving Repr, DecidableEq

namespace EntityType

def all : List EntityType := [
  .string, .bool, .int8, .int16, .int32, .int64, .uint8, .uint16, .uint32, .uint64, .float32,
  .float64, .timestamp, .bytes, .strings]

def name : EntityType → String
  | .string => "string"
  | .bool => "bool"
  | .int8 => "int8"
  | .int16 => "int16"
  | .int32 => "int32"
  | .int64 => "int64"
  | .uint8 => "uint8"
  | .uint16 => "uint16"
  | .uint32 => "uint32"
  | .uint64 => "uint64"
  | .float32 => "float32"
  | .float64 => "float64"
  | .timestamp => "time_ptr"
  | .bytes => "byte_slice"
  | .strings => "string_slice"

def ofName? (s : String) : Option EntityType := all.find? (·.name == s)

def isInteger : EntityType → Bool
  | .int8 | .int16 | .int32 | .int64 | .uint8 | .uint16 | .uint32 | .uint64 => true
  | _ => false

/-- Whether two values can be compared for equality. Sequences cannot. -/
def isComparable : EntityType → Bool
  | .bytes | .strings => false
  | _ => true

/-- The width of a column of single bits. -/
def ofBits (size : UInt64) : EntityType :=
  if size > 32 then .uint64 else if size > 16 then .uint32 else if size > 8 then .uint16 else .uint8

/-- The value type of a declared type. A `tinyint(1)` whose column asks a question, `is_…` or
`has_…`, is a flag. Unknown types hold text. -/
def infer (keyword : String) (size : UInt64) (isUnsigned : Bool) (column : String) : EntityType :=
  match String.ofList (keyword.toList.map Char.toLower) with
  | "bigint" => if isUnsigned then .uint64 else .int64
  | "mediumint" | "int" | "integer" => if isUnsigned then .uint32 else .int32
  | "smallint" => if isUnsigned then .uint16 else .int16
  | "tinyint" =>
    if size = 1 && ("is_".toList.isPrefixOf column.toList || "has_".toList.isPrefixOf column.toList)
    then .bool
    else if isUnsigned then .uint8 else .int8
  | "float" => .float32
  | "double" | "decimal" | "numeric" | "real" => .float64
  | "bit" => ofBits size
  | "date" | "datetime" | "timestamp" | "time" | "year" => .timestamp
  | "blob" | "tinyblob" | "mediumblob" | "longblob" | "binary" | "varbinary" => .bytes
  | "set" => .strings
  | _ => .string

theorem ofName?_name (t : EntityType) : ofName? t.name = some t := by
  cases t <;> decide

end EntityType

end Tablewright
