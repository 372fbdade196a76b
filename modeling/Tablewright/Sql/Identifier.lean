import Tablewright.Text.Blank
import Tablewright.Text.Split

/-! Identifiers as they are written: bare or in quotes, alone or qualified by dots. `Identifier`
holds the name itself, `render` writes it, and the functions on text take a written name apart. -/

namespace Tablewright.Sql

open Tablewright.Text

/-- A name and the quote it was written in. -/
structure Identifier where
  text : String
  quote : Option Char
deriving Repr, DecidableEq

def backtick : Char := '\x60'

/-- Writes a quote inside quoted text twice. One that follows a backslash, or is already written
twice, stands as it is. -/
def escapeQuotes (quote : Char) (afterBackslash : Bool) : List Char → List Char
  | [] => []
  | c :: rest =>
    if c = quote then
      if afterBackslash then c :: escapeQuotes quote true rest
      else match rest with
        | [] => [quote, quote]
        | d :: tail =>
          if d = quote then quote :: quote :: escapeQuotes quote false tail
          else quote :: quote :: escapeQuotes quote false (d :: tail)
    else c :: escapeQuotes quote (c == '\\') rest

/-- The text between two quotes, its own quotes escaped. -/
def quoted (quote : Char) (text : String) : String :=
  .ofList (quote :: escapeQuotes quote false text.toList ++ [quote])

def Identifier.render (id : Identifier) : String :=
  match id.quote with
  | some q => quoted q id.text
  | none => id.text

/-- A qualified name: its identifiers with dots between them. -/
abbrev ObjectName := List Identifier

def ObjectName.render (name : ObjectName) : String := join "." (name.map Identifier.render)

/-- The text inside a pair of the given quotes. -/
def unquoteBy? (quote : Char) : List Char → Option (List Char)
  | [] => none
  | c :: rest => if c = quote && rest.getLast? = some quote then some rest.dropLast else none

/-- The identifier without surrounding backticks or double quotes. -/
def unquote (cs : List Char) : List Char :=
  ((unquoteBy? backtick cs).or (unquoteBy? '"' cs)).getD cs

def isNameQuote (c : Char) : Bool := c == backtick || c == '"'

/-- Cuts at the dots that stand outside quotes. `inside` is the quote that is open. -/
def splitDots (inside : Option Char) : List Char → List (List Char)
  | [] => [[]]
  | c :: rest =>
    if c = '.' && inside.isNone then [] :: splitDots none rest
    else
      let next :=
        if isNameQuote c then
          if inside = some c then none else if inside.isNone then some c else inside
        else inside
      match splitDots next rest with
      | [] => [[c]]
      | part :: parts => (c :: part) :: parts

/-- The parts of a qualified name, trimmed and without their quotes. -/
def splitQualified (name : List Char) : List (List Char) :=
  (splitDots none name).map fun part => unquote (trim part)

/-- The last part of a qualified name. -/
def relationName (name : List Char) : List Char :=
  (splitQualified (trim name)).getLast?.getD []

/-- A quoted identifier up to and with the quote that closes it. -/
def throughQuote (quote : Char) : List Char → List Char
  | [] => []
  | c :: rest => if c = quote then [c] else c :: throughQuote quote rest

/-- The identifier in a column of an index, without the sort order or length after it. -/
def indexColumnName (column : List Char) : List Char :=
  let column := trim column
  unquote <| match column with
    | [] => []
    | c :: rest =>
      if isNameQuote c then c :: throughQuote c rest
      else column.takeWhile fun x => !(x == '(' || isAsciiBlank x)

end Tablewright.Sql
