import Tablewright.Sql.Grammar.Operand

/-! Queries. They matter only for their form. -/

namespace Tablewright.Sql.Grammar

open Phrase

section

-- Expressions and queries one level further in.
variable (expr : Nat → Phrase Expr) (query : Phrase Unit)

/-- Words that cannot name a column or a table after it. -/
def reservedWords : List String := [
  "with", "explain", "analyze", "select", "where", "group", "sort", "having", "order", "top",
  "lateral", "view", "limit", "offset", "fetch", "union", "except", "intersect", "cluster",
  "distribute", "returning", "from", "into", "end", "on", "join", "inner", "cross", "full", "left",
  "right", "natural", "using", "for", "outer", "set", "window", "values", "partition", "as"]

/-- The name that a query gives to a column or a table. -/
def givenName : Phrase Unit :=
  (do keyword "as"; let _ ← identifier; pure ()) <|> do
    ahead fun t => !reservedWords.any t.isKeyword
    let _ ← identifier
    pure ()

def selectItem : Phrase Unit :=
  (do mark "*") <|>
  (do let _ ← identifier; mark "."; mark "*") <|>
  (do let _ ← expr 0; let _ ← maybe givenName; pure ())

/-- A table or a query with the name that it is given, and those of its columns. -/
def tableFactor : Phrase Unit := do
  (do let _ ← objectName; pure ()) <|> (do let _ ← subquery query; pure ())
  let _ ← maybe (do givenName; maybe nameList)
  pure ()

def joinClause : Phrase Unit := do
  let _ ← maybe (keyword "natural")
  let _ ← maybe (oneOf ["inner", "cross"] <|>
    (do let side ← oneOf ["left", "right", "full"]; let _ ← maybe (keyword "outer"); pure side))
  keyword "join"
  tableFactor query
  let _ ← maybe ((do keyword "on"; let _ ← expr 0; pure ()) <|>
    (do keyword "using"; let _ ← nameList; pure ()))
  pure ()

def joinedTable : Phrase Unit := do
  tableFactor query
  let _ ← many (joinClause expr query)
  pure ()

def tableList : Phrase Unit := do
  let _ ← commaList (joinedTable expr query)
  pure ()

def orderItem : Phrase Unit := do
  let _ ← expr 0
  let _ ← maybe (oneOf ["asc", "desc"])
  let _ ← maybe (do keyword "nulls"; oneOf ["first", "last"])
  pure ()

def whereClause : Phrase Unit := do
  let _ ← maybe (do keyword "where"; expr 0)
  pure ()

def orderAndLimit : Phrase Unit := do
  let _ ← maybe (do keywords ["order", "by"]; commaList (orderItem expr))
  let _ ← maybe (do
    keyword "limit"
    let _ ← expr 0
    let _ ← maybe (do mark ","; expr 0)
    pure ())
  let _ ← maybe (do keyword "offset"; expr 0)
  pure ()

def selectBody : Phrase Unit := do
  keyword "select"
  let _ ← maybe (oneOf ["distinct", "all"])
  let _ ← commaList (selectItem expr)
  let _ ← maybe (do keyword "from"; tableList expr query)
  whereClause expr
  let _ ← maybe (do keywords ["group", "by"]; commaList (expr 0))
  let _ ← maybe (do keyword "having"; expr 0)
  pure ()

def valuesBody : Phrase Unit := do
  let _ ← oneOf ["values", "value"]
  let _ ← commaList (parens (commaList (expr 0) <|> pure []))
  pure ()

def commonTable : Phrase Unit := do
  let _ ← identifier
  let _ ← maybe nameList
  keyword "as"
  let _ ← subquery query
  pure ()

def queryWith : Phrase Unit := do
  let _ ← maybe (do
    keyword "with"
    let _ ← maybe (keyword "recursive")
    commaList (commonTable query))
  let body : Phrase Unit :=
    selectBody expr query <|> valuesBody expr <|> (do let _ ← subquery query; pure ())
  body
  let _ ← many (do
    let _ ← oneOf ["union", "except", "intersect"]
    let _ ← maybe (oneOf ["all", "distinct"])
    body)
  orderAndLimit expr
  let _ ← maybe (do keyword "for"; oneOf ["update", "share"])
  pure ()

end

end Tablewright.Sql.Grammar
