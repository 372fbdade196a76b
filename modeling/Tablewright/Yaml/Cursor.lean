import Tablewright.Yaml.Character

/-! A place in a YAML text. Structure depends on columns, so a place knows its own. -/

namespace Tablewright.Yaml

structure Cursor where
  line : Nat
  column : Nat
  /-- Whether a block collection may begin here: so far the line holds only indentation and the
  marks of items. -/
  isFresh : Bool
  rest : List Char
deriving Repr, DecidableEq

namespace Cursor

/-- Where reading begins. A byte order mark takes a column. -/
def ofText (cs : List Char) : Cursor :=
  match cs with
  | '\ufeff' :: rest => ⟨0, 1, true, rest⟩
  | cs => ⟨0, 0, true, cs⟩

/-- Past `n` characters of the line. -/
def advance (c : Cursor) (n : Nat) : Cursor :=
  { c with column := c.column + n, isFresh := false, rest := c.rest.drop n }

/-- Whether the document ends here. -/
def isEnd (c : Cursor) : Bool := c.rest.isEmpty || (c.column == 0 && atMarker c.rest)

/-- Whether the character comes next, and a gap after it. -/
def isMark (c : Cursor) (mark : Char) : Bool :=
  match c.rest with
  | d :: rest => d == mark && atGap rest
  | [] => false

/-- Whether one of the characters comes next. -/
def isBefore (c : Cursor) (marks : List Char) : Bool := c.rest.head?.any marks.contains

/-- The next token: past blanks, comments and breaks. Tabs do not indent, so they are not passed
where a block collection may begin. -/
def skipFrom (inFlow : Bool) (line column : Nat) (isFresh inComment : Bool) : List Char → Cursor
  | [] => ⟨line, column, isFresh, []⟩
  | c :: rest =>
    if isBreak c then skipFrom inFlow (line + 1) 0 (isFresh || !inFlow) false rest
    else if inComment then skipFrom inFlow line (column + 1) isFresh true rest
    else if c == ' ' || (c == '\t' && (inFlow || !isFresh)) then
      skipFrom inFlow line (column + 1) isFresh false rest
    else if c == '#' then skipFrom inFlow line (column + 1) isFresh true rest
    else ⟨line, column, isFresh, c :: rest⟩

def skip (inFlow : Bool) (c : Cursor) : Cursor :=
  skipFrom inFlow c.line c.column c.isFresh false c.rest

end Cursor

end Tablewright.Yaml
