import Tablewright.Sql.Grammar.CreateTable

/-! Statements that define things other than tables, and those that alter and drop. Only their form
is read. -/

namespace Tablewright.Sql.Grammar

open Phrase

def ifExists : Phrase Unit := formOf (maybe (keywords ["if", "exists"]))

def ifNotExists : Phrase Unit := formOf (maybe (keywords ["if", "not", "exists"]))

def dropStatement : Phrase Unit := do
  keyword "drop"
  let _ ← maybe (keyword "temporary")
  let _ ← oneOf [
    "table", "view", "index", "role", "schema", "database", "sequence", "stage", "type"]
  ifExists
  let _ ← commaList objectName
  let _ ← maybe (oneOf ["cascade", "restrict"])
  let _ ← maybe (keyword "purge")
  pure ()

/-- Where a column that is added or changed goes. -/
def columnPosition : Phrase Unit :=
  formOf (maybe (keyword "first" <|> (do keyword "after"; formOf identifier)))

def alterOperation : Phrase Unit :=
  (do
    keyword "add"
    if ← present (ahead fun t => constraintWords.any t.isKeyword) then formOf tableConstraint
    else
      let _ ← maybe (keyword "column")
      ifNotExists
      let _ ← columnDefinition
      columnPosition) <|>
  (do keyword "drop"; keywords ["primary", "key"]) <|>
  (do
    keyword "drop"
    let _ ← maybe (oneOf ["column", "constraint"])
    ifExists
    let _ ← identifier
    formOf (maybe (oneOf ["cascade", "restrict"]))) <|>
  (do
    keyword "rename"
    let _ ← maybe (keyword "column")
    let _ ← identifier
    keyword "to"
    formOf identifier) <|>
  (do keyword "rename"; let _ ← oneOf ["to", "as"]; formOf objectName) <|>
  (do
    keyword "modify"
    let _ ← maybe (keyword "column")
    let _ ← columnDefinition
    columnPosition) <|>
  (do
    keyword "change"
    let _ ← maybe (keyword "column")
    let _ ← identifier
    let _ ← columnDefinition
    columnPosition) <|>
  (do
    keyword "alter"
    let _ ← maybe (keyword "column")
    let _ ← identifier
    (do keywords ["set", "default"]; formOf expr) <|> keywords ["drop", "default"] <|>
      keywords ["set", "not", "null"] <|> keywords ["drop", "not", "null"])

def alterStatement : Phrase Unit := do
  keywords ["alter", "table"]
  ifExists
  let _ ← objectName
  formOf (commaList alterOperation)

def createViewStatement : Phrase Unit := do
  keyword "create"
  let _ ← maybe (keywords ["or", "replace"])
  let _ ← maybe (oneOf ["temp", "temporary"])
  let _ ← maybe (keyword "materialized")
  keyword "view"
  let _ ← objectName
  let _ ← maybe nameList
  keyword "as"
  query

def createIndexStatement : Phrase Unit := do
  keyword "create"
  let _ ← maybe (keyword "unique")
  keyword "index"
  ifNotExists
  let _ ← maybe (do ahead fun t => !t.isKeyword "on"; objectName)
  keyword "on"
  let _ ← objectName
  let _ ← maybe (do keyword "using"; identifier)
  formOf (parens (commaList (orderItem (exprWithin nestingLimit))))

def createDatabaseStatement : Phrase Unit := do
  keyword "create"
  let _ ← oneOf ["database", "schema"]
  ifNotExists
  formOf objectName

def createRoleStatement : Phrase Unit := do
  keywords ["create", "role"]
  ifNotExists
  formOf (commaList objectName)

end Tablewright.Sql.Grammar
