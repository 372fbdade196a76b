import Tablewright.Sql.DataType

/-! Expressions, as far as default values need them, and their written form. -/

namespace Tablewright.Sql

open Tablewright.Text

inductive Literal
  | number (text : String) (long : Bool)
  | single (text : String)
  | double (text : String)
  | national (text : String)
  | hex (digits : String)
  | boolean (value : Bool)
  | null
  | placeholder (text : String)
deriving Repr, DecidableEq

inductive UnaryOperator
  | minus
  | plus
  | not
deriving Repr, DecidableEq

inductive Expr
  | literal (value : Literal)
  /-- A column, possibly qualified. -/
  | name (parts : ObjectName)
  | unary (operator : UnaryOperator) (operand : Expr)
  | binary (left : Expr) (operator : String) (right : Expr)
  | nested (inner : Expr)
  | tuple (items : List Expr)
  /-- A function, with or without an argument list. -/
  | call (function : ObjectName) (arguments : Option (List Expr))
  /-- A test written after its operand, such as `IS NULL`. -/
  | test (operand : Expr) (predicate : String)
  | between (operand : Expr) (operator : String) (low high : Expr)
  /-- Membership in a list. -/
  | among (operand : Expr) (operator : String) (items : List Expr)
  | collate (operand : Expr) (collation : ObjectName)
  /-- A string after the name of its type. -/
  | typed (type : String) (text : String)
  | interval (amount : Expr) (unit : String)
  | cast (operand : Expr) (type : DataType)
  /-- A choice of results by their conditions. -/
  | choice (operand : Option Expr) (branches : List (Expr × Expr)) (otherwise : Option Expr)
  /-- A query or another phrase that is kept as text only. -/
  | verbatim (text : String)
deriving Repr

namespace Literal

def render : Literal → String
  | .number text long => if long then text ++ "L" else text
  | .single text => quoted '\x27' text
  | .double text => quoted '"' text
  | .national text => "N'" ++ text ++ "'"
  | .hex digits => "X'" ++ digits ++ "'"
  | .boolean value => if value then "true" else "false"
  | .null => "NULL"
  | .placeholder text => text

end Literal

namespace UnaryOperator

/-- The operator with whatever separates it from its operand. -/
def render : UnaryOperator → String
  | .minus => "-"
  | .plus => "+"
  | .not => "NOT "

end UnaryOperator

namespace Expr

mutual

def render : Expr → String
  | .literal value => value.render
  | .name parts => parts.render
  | .unary operator operand => operator.render ++ operand.render
  | .binary left operator right => left.render ++ " " ++ operator ++ " " ++ right.render
  | .nested inner => "(" ++ inner.render ++ ")"
  | .tuple items => "(" ++ renderList items ++ ")"
  | .call function none => function.render
  | .call function (some arguments) => function.render ++ "(" ++ renderList arguments ++ ")"
  | .test operand predicate => operand.render ++ " " ++ predicate
  | .between operand operator low high =>
    operand.render ++ " " ++ operator ++ " " ++ low.render ++ " AND " ++ high.render
  | .among operand operator items =>
    operand.render ++ " " ++ operator ++ " (" ++ renderList items ++ ")"
  | .collate operand collation => operand.render ++ " COLLATE " ++ collation.render
  | .typed type text => type ++ " " ++ quoted '\x27' text
  | .interval amount unit => "INTERVAL " ++ amount.render ++ " " ++ unit
  | .cast operand type => "CAST(" ++ operand.render ++ " AS " ++ type.render ++ ")"
  | .choice operand branches otherwise =>
    "CASE" ++ renderAfter " " operand ++ renderBranches branches ++
      renderAfter " ELSE " otherwise ++ " END"
  | .verbatim text => text

/-- Expressions with commas between them. -/
def renderList : List Expr → String
  | [] => ""
  | [e] => e.render
  | e :: es => e.render ++ ", " ++ renderList es

def renderBranches : List (Expr × Expr) → String
  | [] => ""
  | (condition, result) :: rest =>
    " WHEN " ++ condition.render ++ " THEN " ++ result.render ++ renderBranches rest

/-- An expression that may be absent, with the text that introduces it. -/
def renderAfter (lead : String) : Option Expr → String
  | none => ""
  | some e => lead ++ e.render

end

/-- The value that a default expression stands for: the contents of a string, the text of any other
literal, a sign or negation with its operand. `NULL` and computed expressions have none. -/
def literalValue? : Expr → Option String
  | .literal .null => none
  | .literal (.single text) => some text
  | .literal (.double text) => some text
  | .literal value => some value.render
  | .unary operator operand => some (render (.unary operator operand))
  | _ => none

end Expr

end Tablewright.Sql
