import Tablewright.Sql.Token
import Tablewright.Text.Blank
import Tablewright.Text.Split
import Tablewright.Sql.Identifier

/-! Cutting SQL text into tokens. Every step takes at least one character, so the length of the
text bounds the number of steps. -/

namespace Tablewright.Sql.Lexer

open Tablewright.Text

/-- A letter, an underscore, a dollar or at sign, or a character from U+0080 to U+FFFF. -/
def isNameStart (c : Char) : Bool :=
  c.isAlpha || c == '_' || c == '$' || c == '@' || (0x80 ≤ c.toNat && c.toNat ≤ 0xFFFF)

def isNamePart (c : Char) : Bool := isNameStart c || c.isDigit

def isHexDigit (c : Char) : Bool :=
  c.isDigit || ('a' ≤ c && c ≤ 'f') || ('A' ≤ c && c ≤ 'F')

/-- The character that a backslash and `c` stand for. -/
def unescape (c : Char) : Char :=
  match c with
  | '0' => '\x00'
  | 'a' => '\x07'
  | 'b' => '\x08'
  | 'f' => '\x0c'
  | 'n' => '\n'
  | 'r' => '\r'
  | 't' => '\t'
  | 'Z' => '\x1a'
  | _ => c

/-- The text up to the closing quote, and what follows. A doubled quote stands for one. -/
def stringBody? (quote : Char) : List Char → Option (List Char × List Char)
  | [] => none
  | '\\' :: c :: rest => (stringBody? quote rest).map fun (s, r) => (unescape c :: s, r)
  | c :: rest =>
    if c = quote then
      match rest with
      | [] => some ([], [])
      | d :: tail =>
        if d = quote then (stringBody? quote tail).map fun (s, r) => (quote :: s, r)
        else some ([], d :: tail)
    else (stringBody? quote rest).map fun (s, r) => (c :: s, r)

/-- As `stringBody?` for a quoted name, where a backslash is an ordinary character. -/
def nameBody? (quote : Char) : List Char → Option (List Char × List Char)
  | [] => none
  | c :: rest =>
    if c = quote then
      match rest with
      | [] => some ([], [])
      | d :: tail =>
        if d = quote then (nameBody? quote tail).map fun (s, r) => (quote :: s, r)
        else some ([], d :: tail)
    else (nameBody? quote rest).map fun (s, r) => (c :: s, r)

/-- What follows a block comment with `depth` more to close around it. -/
def afterComment? : Nat → List Char → Option (List Char)
  | depth, '/' :: '*' :: rest => afterComment? (depth + 1) rest
  | 0, '*' :: '/' :: rest => some rest
  | depth + 1, '*' :: '/' :: rest => afterComment? depth rest
  | depth, _ :: rest => afterComment? depth rest
  | _, [] => none

/-- The exponent that `cs` begins with. -/
def exponent? (cs : List Char) : Option (List Char × List Char) :=
  match cs with
  | e :: rest =>
    if e = 'e' || e = 'E' then
      let (sign, digits) := match rest with
        | s :: tail => if s = '+' || s = '-' then ([s], tail) else ([], rest)
        | [] => ([], [])
      if digits.head?.any Char.isDigit then
        some (e :: sign ++ digits.takeWhile Char.isDigit, digits.dropWhile Char.isDigit)
      else none
    else none
  | [] => none

def startsExponent (cs : List Char) : Bool := cs.head?.any fun c => c == 'e' || c == 'E'

/-- A token that begins with a digit or a point. Digits before letters make a word, unless the
letters could begin an exponent. -/
def numberToken (cs : List Char) : Token × List Char :=
  let whole := cs.takeWhile Char.isDigit
  let rest := cs.dropWhile Char.isDigit
  match whole, rest with
  | ['0'], 'x' :: digits =>
    (.hex (.ofList (digits.takeWhile isHexDigit)), digits.dropWhile isHexDigit)
  | _, _ =>
    let (point, rest) := match rest with
      | '.' :: tail => (['.'], tail)
      | _ => ([], rest)
    let number := whole ++ point ++ rest.takeWhile Char.isDigit
    let rest := rest.dropWhile Char.isDigit
    if number = ['.'] then (.mark ".", rest)
    else if startsExponent rest then
      let (number, rest) := match exponent? rest with
        | some (e, tail) => (number ++ e, tail)
        | none => (number, rest)
      match rest with
      | 'L' :: tail => (.number (.ofList number) true, tail)
      | _ => (.number (.ofList number) false, rest)
    else if rest.head?.any isNamePart then
      (.word (.ofList (number ++ rest.takeWhile isNamePart)) none, rest.dropWhile isNamePart)
    else (.number (.ofList number) false, rest)

/-- The operators of more than one character, the longer first. -/
def operators : List String := [
  "<=>", "->>", "||/", "<=", "<>", "<<", ">=", ">>", "!=", "!!", "==", "=>", "||", "|/", "&&", "::",
  ":=", "->"]

def operatorToken (c : Char) (rest : List Char) : Token × List Char :=
  match operators.findSome? fun op => (dropStart? op.toList (c :: rest)).map (op, ·) with
  | some (op, tail) => (.mark op, tail)
  | none => (.mark (.ofList [c]), rest)

def wordToken (cs : List Char) : Token × List Char :=
  (.word (.ofList (cs.takeWhile isNamePart)) none, cs.dropWhile isNamePart)

/-- What begins with an at sign: a word, to which the character after the sign belongs whatever it
is, or a mark before a space. -/
def atToken (rest : List Char) : Token × List Char :=
  let word (start : List Char) (tail : List Char) : Token × List Char :=
    (.word (.ofList (start ++ tail.takeWhile isNamePart)) none, tail.dropWhile isNamePart)
  match rest with
  | [] => (.mark "@", [])
  | '>' :: tail => (.mark "@>", tail)
  | '?' :: tail => (.mark "@?", tail)
  | ' ' :: _ => (.mark "@", rest)
  | ['@'] => (.mark "@@", [])
  | '@' :: ' ' :: tail => (.mark "@@", ' ' :: tail)
  | '@' :: c :: tail => word ['@', '@', c] tail
  | c :: tail => word ['@', c] tail

/-- A string token after its mark, `N'…'` and its kind, if a quote follows the letter. -/
def markedString? (kind : String → Token) (rest : List Char) : Option (Option (Token × List Char)) :=
  match rest with
  | '\x27' :: body => some ((stringBody? '\x27' body).map fun (s, r) => (kind (.ofList s), r))
  | _ => none

/-- The token that begins with `c`. -/
def tokenFrom? (c : Char) (rest : List Char) : Option (Token × List Char) :=
  let marked := match c with
    | 'N' | 'n' => markedString? .national rest
    | 'E' | 'e' => markedString? .escaped rest
    | 'X' | 'x' => markedString? .hex rest
    | _ => none
  match marked with
  | some token => token
  | none =>
    if c = '\x27' then (stringBody? c rest).map fun (s, r) => (.single (.ofList s), r)
    else if c = '"' then (stringBody? c rest).map fun (s, r) => (.double (.ofList s), r)
    else if c = backtick then (nameBody? c rest).map fun (s, r) => (.word (.ofList s) (some c), r)
    else if c.isDigit || c = '.' then some (numberToken (c :: rest))
    else if c = '@' then some (atToken rest)
    else if isNameStart c then some (wordToken (c :: rest))
    else if c = '?' then
      some (.placeholder (.ofList (c :: rest.takeWhile Char.isDigit)), rest.dropWhile Char.isDigit)
    else some (operatorToken c rest)

/-- One step: a token, or none for a blank or a comment, and the rest of the text. -/
def step? : List Char → Option (Option Token × List Char)
  | [] => none
  | '-' :: '-' :: rest => some (none, rest.dropWhile (· != '\n'))
  | '#' :: rest => some (none, rest.dropWhile (· != '\n'))
  | '/' :: '*' :: rest => (afterComment? 0 rest).map (none, ·)
  | c :: rest =>
    if c.toNat < 0x80 && isBlank c then some (none, rest)
    else (tokenFrom? c rest).map fun (token, r) => (some token, r)

/-- The tokens of a text, in at most `steps` steps. -/
def tokensWithin? : Nat → List Char → Option (List Token)
  | _, [] => some []
  | 0, _ :: _ => none
  | steps + 1, cs =>
    match step? cs with
    | none => none
    | some (none, rest) => tokensWithin? steps rest
    | some (some token, rest) => (tokensWithin? steps rest).map (token :: ·)

/-- The tokens of a text, unless a string, a quoted name or a comment stays open. -/
def tokens? (cs : List Char) : Option (List Token) := tokensWithin? cs.length cs

end Tablewright.Sql.Lexer
