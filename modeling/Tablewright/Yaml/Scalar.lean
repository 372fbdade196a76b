import Tablewright.Yaml.Cursor
import Tablewright.Yaml.Plain

/-! Reading scalars: plain, quoted, and in blocks. Each reader gives the text of the scalar and the
place after it, or nothing if the text is malformed. A line break inside a scalar becomes a blank,
and of several breaks the first is dropped. -/

namespace Tablewright.Yaml.Scalar

/-- Characters that belong to a scalar, with their width in the text, and what follows. -/
structure Run where
  text : List Char
  width : Nat
  rest : List Char

namespace Run

/-- The run with a character before it that took `width` characters. -/
def cons (c : Char) (width : Nat) (r : Run) : Run := ⟨c :: r.text, r.width + width, r.rest⟩

end Run

/-! ### Gaps -/

/-- What breaks in a row stand for. -/
def folded : List Char → List Char
  | ['\n'] => [' ']
  | '\n' :: more => more
  | breaks => breaks

/-- The breaks that follow a break, with the blanks between them left out, and the place after. No
tab may stand before the column `least`. -/
def moreBreaks? (least line column : Nat) : List Char → Option (List Char × Cursor)
  | [] => some ([], ⟨line, column, true, []⟩)
  | c :: rest =>
    if isBreak c then (moreBreaks? least (line + 1) 0 rest).map fun (bs, cur) => (c :: bs, cur)
    else if c == ' ' then moreBreaks? least line (column + 1) rest
    else if c == '\t' then
      if column < least then none else moreBreaks? least line (column + 1) rest
    else some ([], ⟨line, column, true, c :: rest⟩)

/-- What a gap stands for, and the place after it. Blanks before a break are left out. -/
def gap? (least : Nat) (cur : Cursor) : Option (List Char × Cursor) :=
  let blanks := cur.rest.takeWhile isBlank
  match cur.rest.dropWhile isBlank with
  | c :: rest =>
    if isBreak c then
      (moreBreaks? least (cur.line + 1) 0 rest).map fun (bs, next) => (folded (c :: bs), next)
    else some (blanks, cur.advance blanks.length)
  | [] => some (blanks, cur.advance blanks.length)

/-! ### Plain scalars -/

/-- The brackets and the comma of flow collections. -/
def isFlowMark (c : Char) : Bool := ",[]\x7b\x7d".toList.contains c

/-- Whether a plain scalar can begin here. -/
def startsPlain (inFlow : Bool) : List Char → Bool
  | [] => false
  | c :: rest =>
    !isBlank c && !isBreak c && !isIndicator c &&
      (!isGapIndicator c || (!atGap rest && (c == '-' || !inFlow)))

/-- The characters up to a gap or a mark that ends plain text. In flow collections no mark may
follow a colon. -/
def plainRun? (inFlow : Bool) : List Char → Option (List Char × List Char)
  | [] => some ([], [])
  | c :: rest =>
    if isBlank c || isBreak c then some ([], c :: rest)
    else if inFlow && c == ':' && rest.head?.any (fun d => d == '?' || isFlowMark d) then none
    else if (c == ':' && atGap rest) || (inFlow && isFlowMark c) then some ([], c :: rest)
    else (plainRun? inFlow rest).map fun (text, rest) => (c :: text, rest)

/-- Whether a plain scalar goes on after a gap. -/
def plainGoesOn (inFlow : Bool) (least : Nat) (cur : Cursor) : Bool :=
  !cur.isEnd && !cur.isBefore ['#'] && (inFlow || least ≤ cur.column)

/-- A plain scalar, whose lines after the first begin at column `least` or further in. The place
after it is the next token. -/
def plain? (inFlow : Bool) (least : Nat) : Nat → Cursor → Option (List Char × Cursor)
  | 0, _ => none
  | fuel + 1, cur =>
    match plainRun? inFlow cur.rest with
    | none => none
    | some (run, rest) =>
      let cur := { cur.advance run.length with rest }
      if run.isEmpty || !atGap rest then some (run, cur)
      else match gap? least cur with
        | none => none
        | some (gap, next) =>
          if plainGoesOn inFlow least next then
            match plain? inFlow least fuel next with
            | none => none
            | some ([], _) => some (run, next)
            | some (more, last) => some (run ++ gap ++ more, last)
          else some (run, next)

/-! ### Quoted scalars -/

/-- The characters up to a gap or the closing quote. A doubled quote stands for one. -/
def singleRun : List Char → Run
  | [] => ⟨[], 0, []⟩
  | '\x27' :: '\x27' :: rest => (singleRun rest).cons '\x27' 2
  | c :: rest =>
    if c == '\x27' || isBlank c || isBreak c then ⟨[], 0, c :: rest⟩ else (singleRun rest).cons c 1

/-- The character that a backslash and a letter stand for. -/
def unescape? (letter : Char) : Option Char :=
  match letter with
  | '0' => some '\x00'
  | 'a' => some '\x07'
  | 'b' => some '\x08'
  | 't' | '\t' => some '\t'
  | 'n' => some '\n'
  | 'v' => some '\x0b'
  | 'f' => some '\x0c'
  | 'r' => some '\r'
  | 'e' => some '\x1b'
  | ' ' => some ' '
  | '"' => some '"'
  | '/' => some '/'
  | '\\' => some '\\'
  | 'N' => some '\u0085'
  | '_' => some '\u00a0'
  | 'L' => some '\u2028'
  | 'P' => some '\u2029'
  | _ => none

/-- How many digits follow a letter that begins a code. -/
def codeWidth? (letter : Char) : Option Nat :=
  match letter with
  | 'x' => some 2
  | 'u' => some 4
  | 'U' => some 8
  | _ => none

def charOfCode? (code : Nat) : Option Char :=
  if h : code.isValidChar then some (.ofNatAux code h) else none

/-- The characters up to a gap, the closing quote, or a backslash at the end of a line. `digits`
more digits belong to a code that is `code` so far. -/
def doubleRun? (digits code : Nat) : List Char → Option Run
  | [] => if digits = 0 then some ⟨[], 0, []⟩ else none
  | c :: rest =>
    match digits with
    | 1 =>
      match (Plain.digit? 16 c).bind fun d => charOfCode? (16 * code + d) with
      | some char => (doubleRun? 0 0 rest).map (·.cons char 1)
      | none => none
    | digits + 2 =>
      match Plain.digit? 16 c with
      | some d =>
        (doubleRun? (digits + 1) (16 * code + d) rest).map fun r => { r with width := r.width + 1 }
      | none => none
    | 0 =>
      if c == '"' || isBlank c || isBreak c then some ⟨[], 0, c :: rest⟩
      else if c == '\\' then
        match rest with
        | [] => none
        | letter :: more =>
          if isBreak letter then some ⟨[], 0, c :: rest⟩
          else match unescape? letter, codeWidth? letter with
            | some char, _ => (doubleRun? 0 0 more).map (·.cons char 2)
            | none, some n =>
              (doubleRun? n 0 more).map fun r => { r with width := r.width + 2 }
            | none, none => none
      else (doubleRun? 0 0 rest).map (·.cons c 1)

/-- A quoted scalar after its opening quote, with the reader of its runs. -/
def quoted? (quote : Char) (run? : List Char → Option Run) : Nat → Cursor →
    Option (List Char × Cursor)
  | 0, _ => none
  | fuel + 1, cur =>
    if cur.isEnd then none
    else match run? cur.rest with
      | none => none
      | some run =>
        let cur := { cur.advance run.width with rest := run.rest }
        match run.rest with
        | [] => none
        | c :: rest =>
          if c == quote then some (run.text, cur.advance 1)
          else
            let gap := match c, rest with
              | '\\', _ :: rest => moreBreaks? 0 (cur.line + 1) 0 rest
              | _, _ => gap? 0 cur
            match gap with
            | none => none
            | some (text, next) =>
              (quoted? quote run? fuel { next with isFresh := false }).map fun (more, last) =>
                (run.text ++ text ++ more, last)

def singleQuoted? (fuel : Nat) (cur : Cursor) : Option (List Char × Cursor) :=
  quoted? '\x27' (fun cs => some (singleRun cs)) fuel (cur.advance 1)

def doubleQuoted? (fuel : Nat) (cur : Cursor) : Option (List Char × Cursor) :=
  quoted? '"' (doubleRun? 0 0) fuel (cur.advance 1)

/-! ### Blocks -/

/-- What becomes of the breaks at the end of a block. -/
inductive Chomping
  | strip
  /-- The break of the last line is kept. -/
  | clip
  | keep
deriving Repr, DecidableEq

def chomping? (c : Char) : Option Chomping :=
  if c == '-' then some .strip else if c == '+' then some .keep else none

/-- A depth of one to nine. -/
def depth? (c : Char) : Option Nat :=
  if '1' ≤ c && c ≤ '9' then some (c.toNat - '0'.toNat) else none

/-- What stands after the mark of a block, in either order: the chomping and the depth. -/
def blockHeader (cs : List Char) : Chomping × Option Nat × List Char :=
  match cs with
  | [] => (.clip, none, [])
  | a :: rest =>
    match chomping? a, depth? a with
    | some chomping, _ =>
      match rest with
      | b :: more => if (depth? b).isSome then (chomping, depth? b, more) else (chomping, none, rest)
      | [] => (chomping, none, [])
    | none, some depth =>
      match rest with
      | b :: more =>
        match chomping? b with
        | some chomping => (chomping, some depth, more)
        | none => (.clip, some depth, rest)
      | [] => (.clip, some depth, [])
    | none, none => (.clip, none, cs)

/-- What follows blanks, a comment and a break, if nothing else stands on the line. -/
def afterLine? (inComment : Bool) : List Char → Option (List Char)
  | [] => some []
  | c :: rest =>
    if isBreak c then some rest
    else if inComment then afterLine? true rest
    else if isBlank c then afterLine? false rest
    else if c == '#' then afterLine? true rest
    else none

inductive BlockLine
  /-- A line without text, and its break. -/
  | empty (lineBreak : Char)
  /-- A line with text, and its break unless the document ends there. -/
  | text (cs : List Char) (lineBreak : Option Char)

/-- The widest indentation of empty lines and of the first line with text. -/
def widest? (most column : Nat) : List Char → Option Nat
  | [] => some (max most column)
  | c :: rest =>
    if c == ' ' then widest? most (column + 1) rest
    else if isBreak c then widest? (max most column) 0 rest
    else if c == '\t' then none
    else some (max most column)

/-- The lines of a block of the given depth, and the place after them. `column` blanks stand before
the next character. -/
def blockLines? (depth line column : Nat) (text : Option (List Char)) :
    List Char → Option (List BlockLine × Cursor)
  | [] =>
    match text with
    | some cs => some ([.text cs.reverse none], ⟨line, column, true, []⟩)
    | none => some ([], ⟨line, column, true, []⟩)
  | c :: rest =>
    match text with
    | some cs =>
      if isBreak c then
        (blockLines? depth (line + 1) 0 none rest).map fun (lines, cur) =>
          (.text cs.reverse (some c) :: lines, cur)
      else blockLines? depth line (column + 1) (some (c :: cs)) rest
    | none =>
      if column < depth && c == ' ' then blockLines? depth line (column + 1) none rest
      else if isBreak c then
        (blockLines? depth (line + 1) 0 none rest).map fun (lines, cur) => (.empty c :: lines, cur)
      else if column < depth then
        if c == '\t' then none else some ([], ⟨line, column, true, c :: rest⟩)
      else blockLines? depth line (column + 1) (some [c]) rest

/-- The text of the lines of a block. `last` is the break of the last line with text, `wasDeep` says
that a blank began that line, and `empties` are the breaks of the empty lines since. -/
def blockText (folds : Bool) (chomping : Chomping) (last : List Char) (wasDeep : Bool)
    (empties : List Char) : List BlockLine → List Char
  | [] =>
    match chomping with
    | .strip => []
    | .clip => last
    | .keep => last ++ empties
  | .empty b :: rest => blockText folds chomping last wasDeep (empties ++ [b]) rest
  | .text cs b :: rest =>
    let isDeep := cs.head?.any isBlank
    let gap :=
      if folds && last == ['\n'] && !wasDeep && !isDeep then
        if empties.isEmpty then [' '] else empties
      else last ++ empties
    gap ++ cs ++ blockText folds chomping b.toList isDeep [] rest

/-- A block after its mark. Its lines stand at column `least` or further in, at least one. -/
def block? (folds : Bool) (least : Nat) (cur : Cursor) : Option (List Char × Cursor) :=
  let (chomping, given, rest) := blockHeader (cur.rest.drop 1)
  match afterLine? false rest with
  | none => none
  | some body =>
    let depth := match given with
      | some n => some (least - 1 + n)
      | none => (widest? 0 0 body).map fun n => max n (max least 1)
    match depth with
    | none => none
    | some depth =>
      (blockLines? depth (cur.line + 1) 0 none body).map fun (lines, next) =>
        (blockText folds chomping [] false [] lines, next)

end Tablewright.Yaml.Scalar
