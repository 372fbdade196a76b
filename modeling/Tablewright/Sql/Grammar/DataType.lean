import Tablewright.Sql.DataType
import Tablewright.Sql.Phrase

/-! The phrases that name a type. A bare word that is no keyword of a type, and any quoted word, is
a type of its own. -/

namespace Tablewright.Sql.Grammar

open Phrase

def plainTypes : List String := [
  "boolean", "bool", "real", "float4", "float8", "float32", "float64", "int16", "int32", "int64",
  "int128", "int256", "uint8", "uint16", "uint32", "uint64", "uint128", "uint256", "text", "date",
  "date32", "interval", "json", "jsonb", "uuid", "bytea", "regclass", "trigger"]

def integerTypes : List String := [
  "tinyint", "smallint", "mediumint", "int", "integer", "bigint", "int2", "int4", "int8"]

def sizedTypes : List String := [
  "float", "binary", "varbinary", "blob", "bytes", "clob", "string", "datetime", "timestamptz",
  "timetz"]

def wideCharacterTypes : List String := ["varchar", "nvarchar"]

def exactTypes : List String := ["decimal", "numeric", "dec", "bignumeric", "bigdecimal"]

def upperCase (keyword : String) : String := .ofList (keyword.toList.map Char.toUpper)

def lowerCase (keyword : String) : String := .ofList (keyword.toList.map Char.toLower)

/-- Sizes are numbers below `2 ^ 64`. -/
def size : Phrase Nat := natural UInt64.size

def optionalSize : Phrase (Option Nat) := do
  if ← present (ahead (Token.isMark "(")) then some <$> parens size else pure none

def characterLength : Phrase CharLength := do
  if ← present (keyword "max") then pure .max
  else
    let n ← size
    let unit ← maybe (oneOf ["characters", "octets"])
    pure (.length n (unit.map upperCase))

def optionalLength : Phrase (Option CharLength) := do
  if ← present (ahead (Token.isMark "(")) then some <$> parens characterLength else pure none

def exactPrecision : Phrase (Option (Nat × Option Nat)) := do
  if ← present (ahead (Token.isMark "(")) then
    some <$> parens do
      let precision ← size
      let scale ← maybe (do mark ","; size)
      pure (precision, scale)
  else pure none

/-- The quoted members of an enumeration or a set. -/
def memberList : Phrase (List String) :=
  parens (commaList do
    match ← next with
    | .single text => pure text
    | _ => failure)

/-- Whether a point in time carries a zone, in words. -/
def timeZone : Phrase String :=
  (do keywords ["with", "time", "zone"]; pure " WITH TIME ZONE") <|>
  (do keywords ["without", "time", "zone"]; pure " WITHOUT TIME ZONE") <|> pure ""

/-- One modifier of a custom type. Commas between modifiers are optional. -/
def customModifier : Phrase (Option String) := do
  match ← next with
  | .word text none => pure (some text)
  | .word text (some q) => pure (some (String.singleton q ++ text ++ String.singleton q))
  | .number text _ => pure (some text)
  | .single text => pure (some text)
  | .mark "," => pure none
  | _ => failure

def customType : Phrase DataType := do
  let name ← objectName
  if ← present (ahead (Token.isMark "(")) then
    let modifiers ← parens (many customModifier)
    pure (.custom name (modifiers.filterMap id))
  else pure (.custom name [])

/-- The types of characters that may vary in length. -/
def characterType : Phrase DataType := do
  let word ← oneOf ["character", "char"]
  if ← present (keyword "varying") then .character (upperCase word ++ " VARYING") <$> optionalLength
  else if ← present (keywords ["large", "object"]) then
    (.sized (upperCase word ++ " LARGE OBJECT") · "") <$> optionalSize
  else .character (upperCase word) <$> optionalLength

def keywordType (word : String) : Phrase DataType :=
  let shown := upperCase word
  if plainTypes.contains word then do keyword word; pure (.plain shown)
  else if integerTypes.contains word then do
    keyword word
    let width ← optionalSize
    let isUnsigned ← present (keyword "unsigned")
    pure (.integer shown width isUnsigned)
  else if sizedTypes.contains word then do
    keyword word
    let n ← optionalSize
    pure (.sized shown n "")
  else if wideCharacterTypes.contains word then do
    keyword word
    .character shown <$> optionalLength
  else if exactTypes.contains word then do
    keyword word
    .exact shown <$> exactPrecision
  else match word with
    | "double" => do
      keyword word
      if ← present (keyword "precision") then pure (.plain "DOUBLE PRECISION")
      else pure (.plain "DOUBLE")
    | "character" | "char" => characterType
    | "timestamp" | "time" => do
      keyword word
      let n ← optionalSize
      let zone ← timeZone
      pure (.sized shown n zone)
    | "enum" | "set" => do
      keyword word
      .members shown <$> memberList
    | "array" => failure
    | _ => customType

/-- A type, with a pair of brackets for every level of arrays. -/
def dataType : Phrase DataType := do
  let element ← fun ts => match ts with
    | .word text none :: _ => keywordType (lowerCase text) ts
    | .word _ (some _) :: _ => customType ts
    | _ => none
  let brackets ← many (do mark "["; mark "]")
  pure (brackets.foldl (fun t _ => .array t) element)

end Tablewright.Sql.Grammar
