import Tablewright.Sql.Grammar.Operator
import Tablewright.Sql.Grammar.Query

/-! Expressions and queries contain each other, and nest at most to a fixed depth. -/

namespace Tablewright.Sql.Grammar

mutual

/-- An expression of at most `depth` levels whose operators bind more tightly than `rank`. -/
def exprWithin : Nat → Nat → Phrase Expr
  | 0, _ => failure
  | depth + 1, rank => exprWith (exprWithin depth) (queryWithin depth) rank

def queryWithin : Nat → Phrase Unit
  | 0 => failure
  | depth + 1 => queryWith (exprWithin depth) (queryWithin depth)

end

/-- The number of levels to which expressions may nest. -/
def nestingLimit : Nat := 49

def expr : Phrase Expr := exprWithin nestingLimit 0

def query : Phrase Unit := queryWithin nestingLimit

end Tablewright.Sql.Grammar
