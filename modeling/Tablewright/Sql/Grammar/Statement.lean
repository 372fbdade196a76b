import Tablewright.Sql.Grammar.Change
import Tablewright.Sql.Grammar.Definition
import Tablewright.Sql.Grammar.Session
import Tablewright.Sql.Lexer

/-! Statements and scripts. Of statements other than `CREATE TABLE` only the form is checked. -/

namespace Tablewright.Sql.Grammar

open Phrase

def plainStatement : Phrase Unit :=
  query <|> insertStatement <|> updateStatement <|> deleteStatement <|> dropStatement <|>
  alterStatement <|> createViewStatement <|> createIndexStatement <|> createDatabaseStatement <|>
  createRoleStatement <|> transactionStatement <|> showStatement <|> setStatement <|>
  truncateStatement <|> grantStatement <|> lockStatement <|> serverStatement <|>
  (do keyword "use"; formOf objectName)

def statement : Phrase Statement :=
  (.createTable <$> createTable) <|>
  (do plainStatement; pure .other) <|>
  (do
    let _ ← oneOf ["explain", "describe", "desc"]
    let _ ← maybe (keyword "analyze")
    let _ ← maybe (keyword "verbose")
    formOf createTable <|> plainStatement <|> formOf objectName
    pure .other)

/-- Whether the tokens are used up. -/
def atEnd : Phrase Bool := fun ts => some (ts.isEmpty, ts)

/-- At most `limit` statements with semicolons between them. Empty statements do not count. The
word `END` after a statement closes the text. -/
def script : Nat → Phrase (List Statement)
  | 0 => pure []
  | limit + 1 => do
    let _ ← many (mark ";")
    if ← atEnd then pure []
    else
      let first ← statement
      if ← present (mark ";") then (first :: ·) <$> script limit
      else if ← atEnd then pure [first]
      else do
        ahead (Token.isKeyword "end")
        pure [first]

end Tablewright.Sql.Grammar

namespace Tablewright.Sql

/-- The statements of a text, unless some of it is outside the grammar. -/
def statements? (text : String) : Option (List Statement) := do
  let tokens ← Lexer.tokens? text.toList
  (Grammar.script (tokens.length + 1) tokens).map Prod.fst

end Tablewright.Sql
