import Tablewright.Sql.Grammar.Expr

/-! Statements that change the rows of tables. Only their form is read. -/

namespace Tablewright.Sql.Grammar

open Phrase

def assignment : Phrase Unit := do
  let _ ← objectName
  mark "="
  formOf expr

def insertStatement : Phrase Unit := do
  let _ ← oneOf ["insert", "replace"]
  let _ ← maybe (oneOf ["low_priority", "delayed", "high_priority"])
  let _ ← maybe (keyword "ignore")
  let _ ← maybe (keyword "into")
  let _ ← objectName
  let _ ← maybe (parens (pure ()) <|> formOf nameList)
  keywords ["default", "values"] <|> query
  let _ ← maybe (do
    keywords ["on", "duplicate", "key", "update"]
    commaList assignment)
  pure ()

def updateStatement : Phrase Unit := do
  keyword "update"
  joinedTable (exprWithin nestingLimit) query
  keyword "set"
  let _ ← commaList assignment
  whereClause (exprWithin nestingLimit)

def deleteStatement : Phrase Unit := do
  keyword "delete"
  keyword "from" <|> (do let _ ← commaList objectName; keyword "from")
  tableList (exprWithin nestingLimit) query
  whereClause (exprWithin nestingLimit)
  orderAndLimit (exprWithin nestingLimit)

def truncateStatement : Phrase Unit := do
  keyword "truncate"
  let _ ← maybe (keyword "table")
  formOf (commaList objectName)

end Tablewright.Sql.Grammar
