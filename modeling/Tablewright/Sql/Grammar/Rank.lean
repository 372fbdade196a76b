import Tablewright.Sql.Token

/-! How tightly operators bind. The tighter of two has the higher rank. -/

namespace Tablewright.Sql.Grammar

namespace Rank

def or : Nat := 5
def and : Nat := 10
def not : Nat := 15
def arrow : Nat := 16
def is : Nat := 17
def like : Nat := 19
def comparison : Nat := 20
def pipe : Nat := 21
def caret : Nat := 22
def ampersand : Nat := 23
def xor : Nat := 24
def sum : Nat := 30
def product : Nat := 40
def cast : Nat := 50

end Rank

/-- How tightly a mark binds as an operator, and how it is written between its operands. -/
def markOperator? : String → Option (Nat × String)
  | "=" | "==" => some (Rank.comparison, "=")
  | "<>" | "!=" => some (Rank.comparison, "<>")
  | "<" => some (Rank.comparison, "<")
  | "<=" => some (Rank.comparison, "<=")
  | ">" => some (Rank.comparison, ">")
  | ">=" => some (Rank.comparison, ">=")
  | "<=>" => some (Rank.comparison, "<=>")
  | "+" => some (Rank.sum, "+")
  | "-" => some (Rank.sum, "-")
  | "*" => some (Rank.product, "*")
  | "/" => some (Rank.product, "/")
  | "%" => some (Rank.product, "%")
  | "||" => some (Rank.product, "||")
  | "|" => some (Rank.pipe, "|")
  | "^" => some (Rank.caret, "^")
  | "&" => some (Rank.ampersand, "&")
  | "->" => some (Rank.arrow, "->")
  | "->>" => some (Rank.arrow, "->>")
  | _ => none

/-- The same for a keyword. -/
def wordOperator? (t : Token) : Option (Nat × String) :=
  if t.isKeyword "or" then some (Rank.or, "OR")
  else if t.isKeyword "and" then some (Rank.and, "AND")
  else if t.isKeyword "xor" then some (Rank.xor, "XOR")
  else if t.isKeyword "div" then some (Rank.product, "DIV")
  else none

def binaryOperator? (t : Token) : Option (Nat × String) :=
  match t with
  | .mark text => markOperator? text
  | t => wordOperator? t

end Tablewright.Sql.Grammar
