import Tablewright.Sql.Grammar.Operand

/-! Operands joined by operators and tests. -/

namespace Tablewright.Sql.Grammar

open Phrase

/-- The words that match a pattern. -/
def matchers : List String := ["like", "ilike", "rlike", "regexp", "similar"]

section

-- Expressions and queries one level further in.
variable (expr : Nat → Phrase Expr) (query : Phrase Unit)

def negation : Phrase String := do
  pure (if ← present (keyword "not") then "NOT " else "")

/-- A test after `e`, for an operator that binds more tightly than `rank`. -/
def testAfter (rank : Nat) (e : Expr) : Phrase Expr :=
  (do
    guard (rank < Rank.is)
    keyword "is"
    let no ← negation
    (do
      let what ← oneOf ["null", "true", "false", "unknown"]
      pure (.test e ("IS " ++ no ++ upperCase what))) <|> do
      keywords ["distinct", "from"]
      .binary e ("IS " ++ no ++ "DISTINCT FROM") <$> expr Rank.is) <|>
  (do
    guard (rank < Rank.comparison)
    let no ← negation
    (do
      keyword "in"
      (.among e (no ++ "IN") <$> parens (commaList (expr 0))) <|> do
        let inner ← subquery query
        pure (.test e (no ++ "IN " ++ inner.render))) <|> do
      keyword "between"
      let low ← expr Rank.comparison
      keyword "and"
      .between e (no ++ "BETWEEN") low <$> expr Rank.comparison) <|>
  (do
    guard (rank < Rank.like)
    let no ← negation
    let word ← oneOf matchers
    let word ← if word = "similar" then (do keyword "to"; pure "similar to") else pure word
    let pattern ← expr Rank.like
    match ← maybe (do keyword "escape"; stringText) with
    | none => pure (.binary e (no ++ upperCase word) pattern)
    | some c =>
      pure (.binary e (no ++ upperCase word)
        (.verbatim (pattern.render ++ " ESCAPE " ++ quoted '\x27' c)))) <|>
  (do
    guard (rank < Rank.cast)
    mark "::"
    let type ← dataType
    pure (.verbatim (e.render ++ "::" ++ type.render)))

/-- An operator after `e` that binds more tightly than `rank`, with its right side. -/
def operatorAfter (rank : Nat) (e : Expr) : Phrase Expr := do
  let found ← fun ts => match ts with
    | [] => none
    | t :: rest => (binaryOperator? t).map (·, rest)
  guard (rank < found.1)
  .binary e found.2 <$> expr found.1

/-- Takes operators and tests after `e` while they bind more tightly than `rank`. -/
def extend (rank : Nat) : Nat → Expr → Phrase Expr
  | 0, e => pure e
  | limit + 1, e => do
    match ← maybe (testAfter expr query rank e <|> operatorAfter expr rank e) with
    | none => pure e
    | some longer => extend rank limit longer

def exprWith (rank : Nat) : Phrase Expr := do
  let e ← operand expr query
  fun ts => extend expr query rank ts.length e ts

end

end Tablewright.Sql.Grammar
