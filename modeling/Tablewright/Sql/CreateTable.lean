import Tablewright.Sql.Expr

/-! A `CREATE TABLE` statement: the parts that a schema is built from. Options and constraints that
do not matter to a schema are kept as `other`. -/

namespace Tablewright.Sql

inductive ColumnOption
  | notNull
  | default (value : Expr)
  | autoIncrement
  | primaryKey
  | unique
  | other
deriving Repr

structure ColumnDefinition where
  name : Identifier
  type : DataType
  options : List ColumnOption
deriving Repr

inductive TableConstraint
  | primaryKey (columns : List Identifier)
  /-- A unique key, with the name of its constraint and the name of its index. -/
  | unique (constraint index : Option Identifier) (columns : List Identifier)
  | index (name : Option Identifier) (columns : List Identifier)
  | other
deriving Repr, DecidableEq

structure CreateTable where
  name : ObjectName
  columns : List ColumnDefinition
  constraints : List TableConstraint
deriving Repr

/-- A statement. Only the creation of a table is kept. -/
inductive Statement
  | createTable (table : CreateTable)
  | other
deriving Repr

end Tablewright.Sql
