import Tablewright.Text.Hexadecimal
import Tablewright.Yaml.Character
import Tablewright.Yaml.Plain

/-! The written form of a string. It is plain if it reads back as itself that way, and else quoted,
or a literal block if it has lines. -/

namespace Tablewright.Yaml

open Text

/-- How a scalar is written. -/
inductive Style
  | plain
  | single
  | double
  /-- Its lines, as they are. -/
  | literal
  /-- Its lines, filled into paragraphs. -/
  | folded
deriving Repr, DecidableEq

namespace Written

/-- Whether two neighbours satisfy the test. -/
def anyPair (test : Char → Char → Bool) : List Char → Bool
  | a :: b :: rest => test a b || anyPair test (b :: rest)
  | _ => false

/-- Whether each of the characters may be written as it is. -/
def isClean (cs : List Char) : Bool := cs.all isPrintable

/-- Whether the text is clean and no space stands before a break. -/
def keepsLines (cs : List Char) : Bool :=
  isClean cs && !anyPair (fun a b => a == ' ' && isBreak b) cs

/-- Whether the text can be a literal block. -/
def fitsLiteral (cs : List Char) : Bool := keepsLines cs && cs.getLast? != some ' '

/-- Whether the text can stand between single quotes. -/
def fitsSingle (cs : List Char) : Bool :=
  keepsLines cs && !anyPair (fun a b => isBreak a && b == ' ') cs

/-- Whether a plain text with this beginning would be something else. -/
def startsStructure (cs : List Char) : Bool :=
  match cs with
  | [] => false
  | c :: rest =>
    isIndicator c || (isGapIndicator c && atGap rest) || "---".toList.isPrefixOf cs ||
      "...".toList.isPrefixOf cs

/-- Whether a colon before a gap or a number sign after one stands in the text. -/
def holdsStructure : List Char → Bool
  | [] => false
  | c :: rest =>
    (c == ':' && atGap rest) || ((isBlank c || isBreak c) && rest.head? == some '#') ||
      holdsStructure rest

/-- Whether the text can be written without quotes. -/
def fitsPlain (cs : List Char) : Bool :=
  isClean cs && !cs.any isBreak && cs.head? != some ' ' && cs.getLast? != some ' ' &&
    !startsStructure cs && !holdsStructure cs

/-- The style in which a string is written. -/
def style (s : String) : Style :=
  let cs := s.toList
  if cs.contains '\n' then if fitsLiteral cs then .literal else .double
  else if !Plain.standsForOther s && fitsPlain cs then .plain
  else if fitsSingle cs then .single
  else .double

def spaces (n : Nat) : List Char := List.replicate n ' '

/-- Indents what follows a break by `column`. `atStart` says that a break was just written. -/
def indented (column : Nat) (atStart : Bool) : List Char → List Char
  | [] => []
  | c :: rest =>
    if isBreak c then c :: indented column true rest
    else (if atStart then spaces column else []) ++ c :: indented column false rest

/-- A character between single quotes. -/
def singleChar (c : Char) : List Char := if c = '\x27' then ['\x27', '\x27'] else [c]

/-- Text between single quotes. A line after a break is indented by `column`, also an empty last
one. -/
def singleQuoted (column : Nat) (cs : List Char) : List Char :=
  let body := indented column false (cs.flatMap singleChar)
  '\x27' :: body ++ (if cs.getLast?.any isBreak then spaces column else []) ++ ['\x27']

/-- A character by its code: two digits, four or eight. -/
def coded (c : Char) : List Char :=
  let n := c.toNat
  if n ≤ 0xFF then ['\\', 'x'] ++ upperHex 2 n
  else if n ≤ 0xFFFF then ['\\', 'u'] ++ upperHex 4 n
  else ['\\', 'U'] ++ upperHex 8 n

/-- The letter after a backslash that stands for a character. -/
def escapeLetter? (c : Char) : Option Char :=
  match c with
  | '\x00' => some '0'
  | '\x07' => some 'a'
  | '\x08' => some 'b'
  | '\t' => some 't'
  | '\n' => some 'n'
  | '\x0b' => some 'v'
  | '\x0c' => some 'f'
  | '\r' => some 'r'
  | '\x1b' => some 'e'
  | '"' => some '"'
  | '\\' => some '\\'
  | '\u0085' => some 'N'
  | '\u2028' => some 'L'
  | '\u2029' => some 'P'
  | _ => none

/-- A character between double quotes. -/
def doubleChar (c : Char) : List Char :=
  match escapeLetter? c with
  | some letter => ['\\', letter]
  | none => if isPrintable c then [c] else coded c

def doubleQuoted (cs : List Char) : List Char := '"' :: cs.flatMap doubleChar ++ ['"']

/-- What becomes of the breaks at the end of a block: none is kept, one, or all. -/
def chomping (cs : List Char) : List Char :=
  match cs.reverse with
  | [] => ['-']
  | last :: before =>
    if !isBreak last then ['-'] else if before.head?.all isBreak then ['+'] else []

/-- The depth of a block, given where its first line would not show it. -/
def depthHint (cs : List Char) : List Char :=
  if cs.head?.any fun c => c == ' ' || isBreak c then ['2'] else []

/-- A literal block whose lines are indented by `column`, without the break after the last one. -/
def literal (column : Nat) (cs : List Char) : List Char :=
  '|' :: depthHint cs ++ chomping cs ++ '\n' :: indented column true cs

/-- A string and the end of its line, in a collection at `column`. -/
def line (column : Nat) (s : String) : List Char :=
  let cs := s.toList
  match style s with
  | .plain => cs ++ ['\n']
  | .single => singleQuoted (column + 2) cs ++ ['\n']
  | .literal =>
    literal (column + 2) cs ++ (if cs.getLast?.any isBreak then [] else ['\n'])
  | _ => doubleQuoted cs ++ ['\n']

end Written

end Tablewright.Yaml
