import Tablewright.Sql.CreateTable
import Tablewright.Sql.Grammar.Expr

/-! The phrases of a `CREATE TABLE` statement. -/

namespace Tablewright.Sql.Grammar

open Phrase

/-- What happens to a row when the row it refers to changes. -/
def referentialAction : Phrase Unit :=
  keyword "restrict" <|> keyword "cascade" <|> keywords ["set", "null"] <|>
  keywords ["no", "action"] <|> keywords ["set", "default"]

/-- The actions of a reference, each at most once and in either order. -/
def referenceActions : Phrase Unit := do
  let onDelete := do keywords ["on", "delete"]; referentialAction
  let onUpdate := do keywords ["on", "update"]; referentialAction
  (do onDelete; let _ ← maybe onUpdate; pure ()) <|>
    (do onUpdate; let _ ← maybe onDelete; pure ()) <|> pure ()

/-- One word on when a constraint is checked, with what it settles. -/
def constraintTiming : Phrase String :=
  (do keywords ["not", "deferrable"]; pure "deferrable") <|>
  (do keyword "deferrable"; pure "deferrable") <|>
  (do keyword "initially"; let _ ← oneOf ["deferred", "immediate"]; pure "initially") <|>
  (do keyword "enforced"; pure "enforced") <|>
  (do keywords ["not", "enforced"]; pure "enforced")

/-- When a constraint is checked. Nothing is settled twice. -/
def constraintTimings : Phrase Unit := do
  let settled ← many constraintTiming
  guard settled.Nodup

def checkCondition : Phrase Unit := do
  keyword "check"
  let _ ← parens expr
  pure ()

/-- What a generated column is computed from. -/
def generation : Phrase Unit := do
  let _ ← parens expr
  let _ ← maybe (oneOf ["stored", "virtual"])
  pure ()

/-- A number with a sign or none. -/
def signedNumber : Phrase Unit := do
  let _ ← maybe (mark "-" <|> mark "+")
  match ← next with
  | .number _ _ => pure ()
  | _ => failure

/-- How the values of an identity are counted, each setting at most once and in this order. -/
def counting : Phrase Unit := do
  let _ ← maybe (do keyword "increment"; let _ ← maybe (keyword "by"); signedNumber)
  let _ ← maybe ((do keyword "minvalue"; signedNumber) <|> keywords ["no", "minvalue"])
  let _ ← maybe ((do keyword "maxvalue"; signedNumber) <|> keywords ["no", "maxvalue"])
  let _ ← maybe (do keyword "start"; let _ ← maybe (keyword "with"); signedNumber)
  let _ ← maybe (do keyword "cache"; signedNumber)
  let _ ← maybe (keywords ["no", "cycle"] <|> keyword "cycle")
  pure ()

/-- How a column gets its values: by counting, or from other columns. -/
def generated : Phrase Unit := do
  keyword "generated"
  (do
    keywords ["always", "as", "identity"] <|> keywords ["by", "default", "as", "identity"]
    if ← sees (mark "(") then parens counting else pure ()) <|> do
    keywords ["always", "as"]
    generation

/-- The options that may come at any place. -/
def plainOption : Phrase ColumnOption :=
  (do keywords ["character", "set"]; let _ ← objectName; pure .other) <|>
  (do keywords ["not", "null"]; pure .notNull) <|>
  (do
    keyword "comment"
    match ← next with
    | .single _ => pure .other
    | _ => failure) <|>
  (do keyword "null"; pure .other) <|>
  (do keyword "default"; .default <$> expr) <|>
  (do keywords ["primary", "key"]; constraintTimings; pure .primaryKey) <|>
  (do keyword "unique"; constraintTimings; pure .unique) <|>
  (do
    keyword "references"
    let _ ← objectName
    let _ ← maybe nameList
    referenceActions
    constraintTimings
    pure .other) <|>
  (do checkCondition; pure .other) <|>
  (do keyword "auto_increment"; pure .autoIncrement)

/-- Words on counting and order that mean nothing here. They are passed over. -/
def idleWords : Phrase Unit := do
  let _ ← maybe (keyword "autoincrement")
  let _ ← maybe (keyword "asc")
  let _ ← maybe (keyword "desc")
  pure ()

def columnOption : Phrase ColumnOption :=
  plainOption <|> do
    idleWords
    (do keywords ["on", "update"]; let _ ← expr; pure .other) <|>
      (do generated; pure .other) <|>
      (do keyword "as"; generation; pure .other)

/-- The words that are passed over where no option follows, and so end the options. -/
def endingWords : Phrase Unit := do
  idleWords
  let _ ← maybe ((do
    keyword "generated"
    let _ ← maybe (keywords ["always", "as"])
    pure ()) <|> keyword "identity")
  pure ()

/-- Options of a column: with or without a name, and collations between them. -/
def columnOptions : Phrase (List ColumnOption) := do
  let options ← many (
    (do keyword "constraint"; let _ ← identifier; columnOption) <|> columnOption <|>
    (do endingWords; keyword "collate"; let _ ← objectName; pure .other))
  endingWords
  pure options

def columnDefinition : Phrase ColumnDefinition := do
  let name ← identifier
  let type ← dataType
  let options ← columnOptions
  pure { name, type, options }

/-- The method of an index. -/
def indexMethod : Phrase Unit := do
  keyword "using"
  let _ ← oneOf ["btree", "hash"]
  pure ()

/-- The method and the comment of an index, as often as they come. -/
def indexOptions : Phrase Unit := do
  let _ ← many (indexMethod <|> (do keyword "comment"; let _ ← stringText; pure ()))
  pure ()

/-- The name, the method and the columns of an index. -/
def indexColumns : Phrase (Option Identifier × List Identifier) := do
  let name ← maybe identifier
  let _ ← maybe indexMethod
  let columns ← nameList
  pure (name, columns)

/-- A constraint that may have a name of its own, with that name. -/
def namedConstraint (name : Option Identifier) : Phrase TableConstraint :=
  (do
    keyword "unique"
    let _ ← maybe (oneOf ["key", "index"])
    let (index, columns) ← indexColumns
    indexOptions
    constraintTimings
    pure (.unique name index columns)) <|>
  (do
    keywords ["primary", "key"]
    let (_, columns) ← indexColumns
    indexOptions
    constraintTimings
    pure (.primaryKey columns)) <|>
  (do
    keywords ["foreign", "key"]
    let _ ← nameList
    keyword "references"
    let _ ← objectName
    let _ ← nameList
    referenceActions
    constraintTimings
    pure .other) <|>
  (do checkCondition; pure .other)

/-- An index or a full-text index. These have no constraint name. -/
def plainIndex : Phrase TableConstraint :=
  (do
    let _ ← oneOf ["index", "key"]
    let name ← maybe (do ahead fun t => !t.isKeyword "using"; identifier)
    let _ ← maybe indexMethod
    let columns ← nameList
    pure (.index name columns)) <|>
  (do
    let _ ← oneOf ["fulltext", "spatial"]
    let _ ← maybe (oneOf ["key", "index"])
    let _ ← maybe identifier
    let _ ← nameList
    pure .other)

def tableConstraint : Phrase TableConstraint :=
  (do
    keyword "constraint"
    let name ← identifier
    namedConstraint (some name)) <|>
  namedConstraint none <|> plainIndex

/-- The words that begin a constraint. None of them can begin a column. -/
def constraintWords : List String := [
  "constraint", "unique", "primary", "foreign", "check", "index", "key", "fulltext", "spatial"]

/-- One element between the parentheses: a constraint or a column. -/
def tableElement : Phrase (ColumnDefinition ⊕ TableConstraint) := do
  if ← present (ahead fun t => constraintWords.any t.isKeyword) then .inr <$> tableConstraint
  else
    ahead fun t => match t with
      | .word _ _ => true
      | _ => false
    .inl <$> columnDefinition

/-- The columns and constraints of a table, none of them if there are no parentheses. -/
def tableElements : Phrase (List (ColumnDefinition ⊕ TableConstraint)) := do
  if ← present (ahead (Token.isMark "(")) then parens (commaList tableElement <|> pure [])
  else pure []

/-- What follows the columns, each at most once and in this order. -/
def tableOptions : Phrase Unit := do
  let word : Phrase Unit := do
    match ← next with
    | .word _ _ => pure ()
    | _ => failure
  let _ ← maybe (do keyword "engine"; mark "="; word)
  let _ ← maybe (do
    keyword "auto_increment"
    let _ ← maybe (mark "=")
    natural UInt32.size)
  let _ ← maybe (do keywords ["default", "charset"]; mark "="; word)
  let _ ← maybe (do keyword "collate"; mark "="; word)
  let _ ← maybe (do
    keyword "comment"
    let _ ← maybe (mark "=")
    match ← next with
    | .single _ => pure ()
    | _ => failure)
  let _ ← maybe (do keyword "as"; query)
  pure ()

/-- What follows a name, or what stands in its place: the tokens through the first that is no part
of a name. -/
def afterName : List Token → List Token
  | [] => []
  | t :: rest =>
    match (identifier [t]).isSome, rest with
    | true, .mark "." :: rest => afterName rest
    | _, _ => rest

def createTable : Phrase CreateTable := do
  keyword "create"
  let _ ← maybe (keywords ["or", "replace"] <|> keywords ["or", "alter"])
  let _ ← maybe (keyword "local")
  let _ ← maybe (keyword "global")
  let _ ← maybe (keyword "transient")
  let _ ← maybe (oneOf ["temp", "temporary"])
  keyword "table"
  let _ ← maybe (keywords ["if", "not", "exists"])
  let name ← objectName
  let _ ← maybe (do keyword "like"; fun ts => some ((), afterName ts))
  let elements ← tableElements
  tableOptions
  pure {
    name
    columns := elements.filterMap Sum.getLeft?
    constraints := elements.filterMap Sum.getRight? }

end Tablewright.Sql.Grammar
