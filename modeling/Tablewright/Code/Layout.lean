import Tablewright.Code.Alignment
import Tablewright.Text.Blank

/-! The written form of types, expressions and statements. A nested block stands one tab further in
than what it belongs to. -/

namespace Tablewright.Code

open Tablewright.Text

def openBrace : String := "\x7b"

def closeBrace : String := "\x7d"

/-- The name by which a package is referred to: the last segment of its path. -/
def packageName (path : String) : String :=
  .ofList ((splitAt (· == '/') path.toList).getLast?.getD [])

namespace TypeRef

mutual

def render : TypeRef → String
  | .named name => name
  | .qualified package name => packageName package ++ "." ++ name
  | .pointer target => "*" ++ target.render
  | .slice element => "[]" ++ element.render
  | .map key value => "map[" ++ key.render ++ "]" ++ value.render
  | .func params results => "func(" ++ renderList params ++ ")" ++ renderResults results
  | .any => "interface" ++ openBrace ++ closeBrace

/-- Types with commas between them. -/
def renderList : List TypeRef → String
  | [] => ""
  | [t] => t.render
  | t :: ts => t.render ++ ", " ++ renderList ts

/-- Results with the blank before them, in parentheses if there are several. -/
def renderResults : List TypeRef → String
  | [] => ""
  | [t] => " " ++ t.render
  | t :: ts => " (" ++ t.render ++ ", " ++ renderList ts ++ ")"

end

end TypeRef

namespace Param

def render (p : Param) : String := p.name ++ " " ++ p.type.render

def renderList (params : List Param) : String := join ", " (params.map render)

end Param

def Signature.render (s : Signature) : String :=
  s.name ++ "(" ++ Param.renderList s.params ++ ")" ++ TypeRef.renderResults s.results

namespace BinaryOp

/-- How tightly an operator binds. -/
def precedence : BinaryOp → Nat
  | .or => 1
  | .and => 2
  | .eq | .ne | .lt | .gt | .ge => 3

def render : BinaryOp → String
  | .eq => "=="
  | .ne => "!="
  | .lt => "<"
  | .gt => ">"
  | .ge => ">="
  | .and => "&&"
  | .or => "||"

end BinaryOp

def UnaryOp.render : UnaryOp → String
  | .addr => "&"
  | .deref => "*"
  | .not => "!"

/-- A character inside a quoted string. -/
def escapeChar (c : Char) : List Char :=
  match c with
  | '"' => ['\\', '"']
  | '\\' => ['\\', '\\']
  | '\n' => ['\\', 'n']
  | '\t' => ['\\', 't']
  | '\r' => ['\\', 'r']
  | c => [c]

/-- A string literal. -/
def quote (value : String) : String := .ofList ('"' :: value.toList.flatMap escapeChar ++ ['"'])

def tabs (level : Nat) : String := .ofList (List.replicate level '\t')

/-- The inside of a keyed literal: a line for every entry, and the blanks before the closing
brace. -/
def keyedBody (level : Nat) (entries : List (String × String)) : String :=
  if entries.isEmpty then ""
  else "\n" ++ String.join ((entryLines entries).map fun line => tabs (level + 1) ++ line ++ "\n") ++
    tabs level

/-- Parentheses around an operand that binds less tightly than its place asks for. -/
def guarded (needed : Nat) (e : Expr) (text : String) : String :=
  match e with
  | .binary _ op _ => if op.precedence < needed then "(" ++ text ++ ")" else text
  | _ => text

/-- Parentheses around the operand of a unary operator if it has an operator of two sides. -/
def unaryOperand (e : Expr) (text : String) : String :=
  match e with
  | .binary _ _ _ => "(" ++ text ++ ")"
  | _ => text

mutual

/-- An expression whose first line continues a line at `level`. -/
def Expr.render (level : Nat) : Expr → String
  | .ident name => name
  | .qualified package name => packageName package ++ "." ++ name
  | .nil => "nil"
  | .str value => quote value
  | .int value => toString value
  | .type t => t.render
  | .field base name => base.render level ++ "." ++ name
  | .call callee args => callee.render level ++ "(" ++ renderExprs level args ++ ")"
  | .index base position => base.render level ++ "[" ++ position.render level ++ "]"
  | .unary op operand => op.render ++ unaryOperand operand (operand.render level)
  | .binary left op right =>
    guarded op.precedence left (left.render level) ++ " " ++ op.render ++ " " ++
      guarded (op.precedence + 1) right (right.render level)
  | .paren inner => "(" ++ inner.render level ++ ")"
  | .composite type fields =>
    type.render ++ openBrace ++ keyedBody level (renderFields (level + 1) fields) ++ closeBrace
  | .slice element elements =>
    "[]" ++ element.render ++ openBrace ++ renderExprs level elements ++ closeBrace
  | .map key value entries =>
    "map[" ++ key.render ++ "]" ++ value.render ++ openBrace ++
      keyedBody level (renderEntries (level + 1) entries) ++ closeBrace
  | .func params results body =>
    "func(" ++ Param.renderList params ++ ")" ++ TypeRef.renderResults results ++ " " ++ openBrace ++
      "\n" ++ renderBlock (level + 1) body ++ tabs level ++ closeBrace

/-- Expressions with commas between them. -/
def renderExprs (level : Nat) : List Expr → String
  | [] => ""
  | [e] => e.render level
  | e :: es => e.render level ++ ", " ++ renderExprs level es

def renderFields (level : Nat) : List (String × Expr) → List (String × String)
  | [] => []
  | (name, value) :: rest => (name, value.render level) :: renderFields level rest

def renderEntries (level : Nat) : List (Expr × Expr) → List (String × String)
  | [] => []
  | (key, value) :: rest => (key.render level, value.render level) :: renderEntries level rest

/-- The lines of a statement, each ended by a line feed. -/
def Stmt.render (level : Nat) : Stmt → String
  | .expr e => tabs level ++ e.render level ++ "\n"
  | .define names value => tabs level ++ join ", " names ++ " := " ++ value.render level ++ "\n"
  | .assign target value =>
    tabs level ++ target.render level ++ " = " ++ value.render level ++ "\n"
  | .declare name type => tabs level ++ "var " ++ name ++ " " ++ type.render ++ "\n"
  | .ret [] => tabs level ++ "return\n"
  | .ret (e :: es) => tabs level ++ "return " ++ renderExprs level (e :: es) ++ "\n"
  | .when init condition body =>
    tabs level ++ "if " ++ renderInit level init ++ condition.render level ++ " " ++ openBrace ++
      "\n" ++ renderBlock (level + 1) body ++ tabs level ++ closeBrace ++ "\n"
  | .range key value source body =>
    tabs level ++ "for " ++ key.getD "_" ++ ", " ++ value ++ " := range " ++ source.render level ++
      " " ++ openBrace ++ "\n" ++ renderBlock (level + 1) body ++ tabs level ++ closeBrace ++ "\n"
  | .count counter first bound body =>
    tabs level ++ "for " ++ counter ++ " := " ++ first.render level ++ "; " ++ counter ++ " < " ++
      bound.render level ++ "; " ++ counter ++ "++ " ++ openBrace ++ "\n" ++
      renderBlock (level + 1) body ++ tabs level ++ closeBrace ++ "\n"

/-- The statement before a condition, on the same line. -/
def renderInit (level : Nat) : Option Stmt → String
  | none => ""
  | some (.expr e) => e.render level ++ "; "
  | some (.define names value) => join ", " names ++ " := " ++ value.render level ++ "; "
  | some (.assign target value) => target.render level ++ " = " ++ value.render level ++ "; "
  | some (.declare name type) => "var " ++ name ++ " " ++ type.render ++ "; "
  | some (.ret []) => "return; "
  | some (.ret (e :: es)) => "return " ++ renderExprs level (e :: es) ++ "; "
  | some s => .ofList (trim (s.render level).toList) ++ "; "

/-- The lines of statements in order. -/
def renderBlock (level : Nat) : List Stmt → String
  | [] => ""
  | s :: rest => s.render level ++ renderBlock level rest

end

end Tablewright.Code
