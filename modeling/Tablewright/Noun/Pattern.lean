import Tablewright.Text.Case
import Tablewright.Text.WordCharacter

/-! Patterns for the endings of nouns. Letters match in either case. `Pattern.runs` lists every way
to match at one place, the preferred first; there is no repetition, so the list is finite and the
definition follows the pattern. -/

namespace Tablewright.Noun

open Tablewright.Text

/-- Whether `c` is the lower-case letter `letter` in some case. The long s counts as an s. -/
def sameLetter (letter c : Char) : Bool :=
  lowerChar c == [letter] || (letter == 's' && c == 'ſ')

/-- Whether `c` is outside ASCII in every case. -/
def isBeyondAscii (c : Char) : Bool :=
  !isAscii c && c != 'ſ' && !(lowerChar c).all isAscii

inductive Pattern
  /-- Matches nothing, anywhere. -/
  | empty
  /-- A letter in either case. -/
  | letter (c : Char)
  /-- Any one of the letters. -/
  | oneOf (letters : List Char)
  /-- One character that is none of the letters. -/
  | noneOf (letters : List Char)
  /-- One character outside ASCII. -/
  | beyondAscii
  /-- One character that cannot be part of a word. -/
  | nonWord
  /-- The place where a word begins or ends. -/
  | wordEdge
  /-- The beginning of the text. -/
  | start
  | seq (first second : Pattern)
  /-- The first alternative, or else the second. -/
  | either (first second : Pattern)
  /-- The pattern if possible, or else nothing. -/
  | optional (inner : Pattern)
  /-- Remembers the text that the inner pattern matches. -/
  | group (inner : Pattern)
deriving Repr

/-- A place in a text: what was passed, nearest first, what lies ahead, and the groups so far. -/
structure Cursor where
  passed : List Char
  ahead : List Char
  groups : List (List Char)
deriving Repr, DecidableEq

namespace Cursor

/-- Passes one character of the given kind. -/
def advance (cur : Cursor) (accepts : Char → Bool) : List Cursor :=
  match cur.ahead with
  | [] => []
  | c :: rest =>
    if accepts c then [{ cur with passed := c :: cur.passed, ahead := rest }] else []

/-- Whether exactly one of the two neighbours is a word character. -/
def atWordEdge (cur : Cursor) : Bool :=
  cur.passed.head?.any isWordCharacter != cur.ahead.head?.any isWordCharacter

/-- The text passed since an earlier cursor. -/
def since (cur earlier : Cursor) : List Char :=
  earlier.ahead.take (earlier.ahead.length - cur.ahead.length)

end Cursor

namespace Pattern

def runs : Pattern → Cursor → List Cursor
  | .empty, cur => [cur]
  | .letter c, cur => cur.advance (sameLetter c)
  | .oneOf cs, cur => cur.advance fun x => cs.any (sameLetter · x)
  | .noneOf cs, cur => cur.advance fun x => !cs.any (sameLetter · x)
  | .beyondAscii, cur => cur.advance isBeyondAscii
  | .nonWord, cur => cur.advance fun x => !isWordCharacter x
  | .wordEdge, cur => if cur.atWordEdge then [cur] else []
  | .start, cur => if cur.passed.isEmpty then [cur] else []
  | .seq p q, cur => (p.runs cur).flatMap q.runs
  | .either p q, cur => p.runs cur ++ q.runs cur
  | .optional p, cur => p.runs cur ++ [cur]
  | .group p, cur => (p.runs cur).map fun after =>
      { after with groups := after.groups ++ [after.since cur] }

/-- The preferred match that begins here and reaches the end of the text. -/
def ending? (p : Pattern) (cur : Cursor) : Option Cursor :=
  (p.runs cur).find? (·.ahead.isEmpty)

/-- The first place from which the pattern reaches the end of the text: what stands before it, what
is matched, and the groups. -/
def searchEnd? (p : Pattern) (passed : List Char) :
    List Char → Option (List Char × List Char × List (List Char))
  | [] => (p.ending? ⟨passed, [], []⟩).map fun found => (passed.reverse, [], found.groups)
  | c :: rest =>
    match p.ending? ⟨passed, c :: rest, []⟩ with
    | some found => some (passed.reverse, c :: rest, found.groups)
    | none => searchEnd? p (c :: passed) rest

instance : Append Pattern := ⟨.seq⟩

instance : HOr Pattern Pattern Pattern := ⟨.either⟩

/-- The given letters in order. -/
def text (s : String) : Pattern := s.toList.foldr (fun c p => .seq (.letter c) p) .empty

/-- Any of the given texts, the earlier preferred. -/
def anyOf : List String → Pattern
  | [] => .oneOf []
  | [s] => text s
  | s :: rest => .either (text s) (anyOf rest)

end Pattern

end Tablewright.Noun
