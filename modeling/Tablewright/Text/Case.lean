import Tablewright.Text.CaseTable

/-! Upper and lower case of text. A character may change into several (`ß` becomes `SS`), and a
capital sigma at the end of a word becomes `ς`, so case is a function on texts. On ASCII it agrees
with the case functions of `Char`. -/

namespace Tablewright.Text

namespace Case

/-- The image of a code point under the rows `(first, last, step, target)`. -/
def image? (rows : List (Nat × Nat × Nat × Nat)) (code : Nat) : Option Nat :=
  rows.findSome? fun (first, last, step, target) =>
    if (CodeRun.mk first last step).contains code then some (target + (code - first)) else none

/-- The other-case form of one character, from its rows and its expansions. -/
def convert (rows : List (Nat × Nat × Nat × Nat)) (expansions : List (Nat × List Nat))
    (c : Char) : List Char :=
  match expansions.lookup c.toNat with
  | some codes => codes.map Char.ofNat
  | none => ((image? rows c.toNat).map fun code => [Char.ofNat code]).getD [c]

end Case

def upperChar (c : Char) : List Char :=
  if isAscii c then [c.toUpper] else Case.convert CaseTable.upperRuns CaseTable.upperExpansions c

def lowerChar (c : Char) : List Char :=
  if isAscii c then [c.toLower] else Case.convert CaseTable.lowerRuns CaseTable.lowerExpansions c

/-- Whether a character is an upper-case letter, including those without a lower case. -/
def isUppercase (c : Char) : Bool :=
  if isAscii c then c.isUpper else CaseTable.uppercase.contains c

def isCased (c : Char) : Bool :=
  if isAscii c then c.isAlpha else CaseTable.cased.contains c

/-- Characters that are passed over when looking for the letter next to a sigma. -/
def isCaseIgnorable (c : Char) : Bool :=
  if isAscii c then c == '\x27' || c == '.' || c == ':' || c == '^' || c == '\x60'
  else CaseTable.caseIgnorable.contains c

/-- Whether the nearest character that is not passed over is a cased letter. -/
def meetsLetter (cs : List Char) : Bool :=
  ((cs.dropWhile isCaseIgnorable).head?.map isCased).getD false

def upper (cs : List Char) : List Char := cs.flatMap upperChar

/-- The lower case of `cs`, where `before` holds the characters already passed, nearest first. -/
def lowerAfter (before : List Char) : List Char → List Char
  | [] => []
  | c :: rest =>
    (if c == 'Σ' then
      if meetsLetter before && !meetsLetter rest then ['ς'] else ['σ']
    else lowerChar c) ++ lowerAfter (c :: before) rest

def lower (cs : List Char) : List Char := lowerAfter [] cs

end Tablewright.Text
