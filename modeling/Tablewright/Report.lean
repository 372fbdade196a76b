import Tablewright.Finder
import Tablewright.Schema.Tables

/-! A summary of tables for a reader: one overview, then the lookups of each table. -/

namespace Tablewright.Report

open Text

def conventionText : Convention → String
  | .readOnly => "read-only"
  | .mutable => "mutable"
  | .userScoped => "user-scoped"

/-- A row of the overview. -/
def row (cells : List String) : String := "| " ++ join " | " cells ++ " |"

def tableRow (t : Table) : String :=
  row [t.name, conventionText t.convention, toString t.columns.length, toString t.indexes.length,
    toString t.finders.length]

def overview (ts : Tables) : List String :=
  ["# ddl2dao Generation Report", "", "## Tables", "",
    row ["Table", "Convention", "Columns", "Indexes", "Finders"],
    "|-------|------------|---------|---------|---------|"] ++ ts.toList.map tableRow

def argText (a : FinderArg) : String :=
  a.name ++ " " ++ (if a.isSequence then "[]" else "") ++ a.entityType.name

/-- What a finder answers, and how it compares which columns. -/
def notes (f : Finder) : String :=
  "(" ++ f.arity.name ++ ", " ++ f.lookup.name ++ " on " ++ join ", " f.columns ++
    (if f.isUserScoped then "; scoped to current user" else "") ++ ")"

def finderLine (f : Finder) : String :=
  "- `" ++ f.name ++ "(" ++ join ", " (f.args.map argText) ++ ")` " ++ notes f

def finderLines : List Finder → List String
  | [] => ["No finders."]
  | finders => finders.map finderLine

/-- The part about one table, with an empty line before it. -/
def tableSection (t : Table) : List String := ["", "## " ++ t.name, ""] ++ finderLines t.finders

/-- The text of the whole summary. -/
def render (ts : Tables) : String := unlines (overview ts ++ ts.toList.flatMap tableSection)

end Tablewright.Report
