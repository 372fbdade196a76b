import Tablewright.Sql.Grammar.Expr

/-! Statements about the session, its rights and its transactions. Only their form is read. -/

namespace Tablewright.Sql.Grammar

open Phrase

/-- How a transaction sees the others, and what it may do. -/
def transactionMode : Phrase Unit :=
  (do
    keywords ["isolation", "level"]
    keywords ["read", "uncommitted"] <|> keywords ["read", "committed"] <|>
      keywords ["repeatable", "read"] <|> keyword "serializable") <|>
  keywords ["read", "only"] <|> keywords ["read", "write"]

def transactionModes : Phrase Unit := formOf (maybe (commaList transactionMode))

/-- Whether another transaction follows at once. -/
def chaining : Phrase Unit := formOf (maybe (do
  keyword "and"
  let _ ← maybe (keyword "no")
  keyword "chain"))

def transactionStatement : Phrase Unit :=
  (do keyword "begin"; let _ ← maybe (oneOf ["transaction", "work"]); transactionModes) <|>
  (do keywords ["start", "transaction"]; transactionModes) <|>
  (do
    let word ← oneOf ["commit", "rollback", "end"]
    let _ ← maybe (oneOf ["transaction", "work"])
    chaining
    if word = "rollback" then
      formOf (maybe (do keyword "to"; let _ ← maybe (keyword "savepoint"); identifier))
    else pure ()) <|>
  (do keyword "savepoint"; formOf identifier) <|>
  (do keyword "release"; let _ ← maybe (keyword "savepoint"); formOf identifier)

/-- Which of the things to show are shown. -/
def showFilter : Phrase Unit := formOf (maybe
  ((do let _ ← oneOf ["like", "ilike"]; formOf stringText) <|> (do keyword "where"; formOf expr)))

/-- All tokens up to an equals sign. Not even a semicolon ends them. -/
def anyTokens : Phrase Unit := formOf (many (token fun t => !t.isMark "="))

/-- The place that things are shown from. -/
def shownFrom : Phrase Unit := do
  let _ ← oneOf ["from", "in"]
  formOf objectName

def showStatement : Phrase Unit := do
  keyword "show"
  let isExtended ← present (keyword "extended")
  let isFull ← present (keyword "full")
  let _ ← maybe (keyword "session")
  let _ ← maybe (keyword "global")
  let kind ← maybe (oneOf [
    "columns", "fields", "tables", "functions", "create", "collation", "variables", "status"])
  match kind with
  | some "columns" | some "fields" => do
    shownFrom
    formOf (maybe shownFrom)
    showFilter
  | some "tables" => do
    formOf (maybe shownFrom)
    showFilter
  | some "functions" => showFilter
  | kind =>
    if isExtended || isFull then failure
    else match kind with
      | some "create" => do
        let _ ← oneOf ["table", "trigger", "function", "procedure", "event", "view"]
        formOf objectName
      | some _ => showFilter
      | none => anyTokens

def setStatement : Phrase Unit := do
  keyword "set"
  (do
    keyword "names"
    formOf identifier
    formOf (maybe (do keyword "collate"; identifier))) <|>
  (do keyword "transaction"; transactionModes) <|>
  (do keyword "role"; formOf identifier) <|> do
    let _ ← maybe (oneOf ["session", "local"])
    let _ ← objectName
    mark "=" <|> keyword "to"
    formOf (commaList expr)

/-- What is granted or taken back, and where. -/
def privileges : Phrase Unit := do
  (do keyword "all"; formOf (maybe (keyword "privileges"))) <|> formOf (commaList do
    let _ ← oneOf [
      "select", "insert", "update", "references", "connect", "create", "delete", "execute",
      "temporary", "trigger", "truncate", "usage"]
    formOf (maybe nameList))
  keyword "on"
  let _ ← maybe (oneOf ["table", "schema", "sequence"])
  formOf (commaList objectName)

def grantStatement : Phrase Unit :=
  (do
    keyword "grant"
    privileges
    keyword "to"
    let _ ← commaList identifier
    formOf (maybe (keywords ["with", "grant", "option"]))) <|>
  (do
    keyword "revoke"
    privileges
    keyword "from"
    let _ ← commaList identifier
    formOf (maybe (oneOf ["cascade", "restrict"])))

def lockWords : List String := ["read", "write", "low_priority"]

/-- A table, the name that it is given, and what others may not do meanwhile. -/
def lockedTable : Phrase Unit := do
  let _ ← identifier
  let _ ← maybe ((do keyword "as"; identifier) <|> (do
    ahead fun t => !lockWords.any t.isKeyword
    identifier))
  (do keyword "read"; formOf (maybe (keyword "local"))) <|> keyword "write" <|>
    keywords ["low_priority", "write"]

def lockStatement : Phrase Unit :=
  keywords ["unlock", "tables"] <|> do
    keywords ["lock", "tables"]
    formOf (commaList lockedTable)

/-- Statements about the server and its tables. -/
def serverStatement : Phrase Unit :=
  (do
    keyword "kill"
    let _ ← maybe (oneOf ["connection", "query"])
    formOf size) <|>
  (do keywords ["analyze", "table"]; formOf objectName) <|>
  (do keyword "call"; let _ ← objectName; formOf (maybe (arguments (exprWithin nestingLimit)))) <|>
  (do keyword "deallocate"; let _ ← maybe (keyword "prepare"); formOf identifier)

end Tablewright.Sql.Grammar
