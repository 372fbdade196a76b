import Tablewright.Code.Layout
import Tablewright.Proofs.Text.Letters
import Tablewright.Proofs.Text.Runs
import Tablewright.Proofs.Text.Scanner
import Tablewright.Proofs.Yaml.Numerals

/-! The tokens of written code. A token is the longest that the text begins with, so an operator
must be kept from what would make it another one: `&` before `&`, `!` before `=`. Which characters
beyond ASCII are letters and digits depends on the version of Unicode, and nothing here depends on
that. -/

namespace Tablewright.Code

/-! ## Characters -/

/-- Which characters are letters and digits. Within ASCII this is fixed. -/
structure Alphabet where
  letter : Char → Bool
  digit : Char → Bool

namespace Alphabet

variable (u : Alphabet)

/-- The underscore counts as a letter. -/
def isLetter (c : Char) : Bool :=
  if Text.isAscii c then c.isAlpha || c == '_' else u.letter c

def isDigit (c : Char) : Bool := if Text.isAscii c then c.isDigit else u.digit c

/-- The characters of a name behind its first. -/
def continues (c : Char) : Bool := u.isLetter c || u.isDigit c

end Alphabet

/-- The names that the language keeps for itself. -/
def keywords : List String := [
  "break", "case", "chan", "const", "continue", "default", "defer", "else", "fallthrough", "for",
  "func", "go", "goto", "if", "import", "interface", "map", "package", "range", "return", "select",
  "struct", "switch", "type", "var"]

/-- A letter and then letters and digits, but no keyword. -/
structure Alphabet.IsName (u : Alphabet) (name : String) : Prop where
  spelled : ∃ c cs, name.toList = c :: cs ∧ u.isLetter c = true ∧ ∀ d ∈ cs, u.continues d = true
  notKeyword : name ∉ keywords

/-! ## Tokens -/

inductive Token
  /-- A name, or a keyword. -/
  | name (text : String)
  | number (value : Nat)
  /-- A string literal, with the text that it stands for. -/
  | text (value : String)
  | unary (op : UnaryOp)
  | binary (op : BinaryOp)
  | period
  | comma
  | openParen
  | closeParen
  | openBracket
  | closeBracket
  /-- An operator or a mark that stands in no expression of `Code` outside of the others. -/
  | other (mark : String)
deriving DecidableEq

namespace Token

/-- All operators and marks, the longer before the shorter. -/
def marks : List (String × Token) :=
  (["<<=", ">>=", "&^=", "..."].map fun m => (m, other m)) ++
  [("==", binary .eq), ("!=", binary .ne), (">=", binary .ge), ("&&", binary .and),
    ("||", binary .or)] ++
  (["<=", "<-", "<<", ">>", "++", "--", "&^", ":=", "+=", "-=", "*=", "/=", "%=", "&=", "|=",
    "^="].map fun m => (m, other m)) ++
  [("<", binary .lt), (">", binary .gt), ("!", unary .not), ("*", unary .deref), ("&", unary .addr),
    (".", period), (",", comma), ("(", openParen), (")", closeParen), ("[", openBracket),
    ("]", closeBracket)] ++
  (["+", "-", "/", "%", "|", "^", "=", ";", ":", "~", openBrace, closeBrace].map
    fun m => (m, other m))

/-- The operator or mark that a text begins with. -/
def mark? (cs : List Char) : Option (Token × List Char) :=
  (marks.find? fun m => m.1.toList.isPrefixOf cs).map fun m => (m.2, cs.drop m.1.length)

/-- The character that a letter behind a backslash stands for. -/
def unescape? : Char → Option Char
  | 'a' => some '\x07'
  | 'b' => some '\x08'
  | 'f' => some '\x0c'
  | 'n' => some '\n'
  | 'r' => some '\r'
  | 't' => some '\t'
  | 'v' => some '\x0b'
  | '\\' => some '\\'
  | '"' => some '"'
  | _ => none

/-- What a string literal stands for, read from behind its first quote, and what follows it. -/
def literal? : List Char → Option (List Char × List Char)
  | '"' :: rest => some ([], rest)
  | '\\' :: c :: rest => do
    let value ← unescape? c
    (literal? rest).map fun (values, after) => (value :: values, after)
  | c :: rest =>
    if c = '\n' ∨ c = '\\' then none
    else (literal? rest).map fun (values, after) => (c :: values, after)
  | [] => none

/-- The whole number that a text begins with. Numerals with a base, a point or an exponent are
none. -/
def number? (u : Alphabet) (cs : List Char) : Option (Nat × List Char) :=
  let digits := cs.takeWhile Char.isDigit
  let after := cs.dropWhile Char.isDigit
  if after.head?.any (fun c => u.continues c || c == '.') ||
      (digits.head? = some '0' && digits ≠ ['0'])
  then none
  else some (Nat.ofDigitChars 10 digits 0, after)

/-- The token that a text begins with, and what follows it. -/
def scan? (u : Alphabet) : List Char → Option (Token × List Char)
  | [] => none
  | c :: rest =>
    if u.isLetter c then
      some (name (.ofList (c :: rest.takeWhile u.continues)), rest.dropWhile u.continues)
    else if c.isDigit then (number? u (c :: rest)).map fun (n, after) => (number n, after)
    else if c = '"' then (literal? rest).map fun (value, after) => (text (.ofList value), after)
    else mark? (c :: rest)

/-- Blanks between tokens. A line feed is none: it would end the statement. -/
def isBlank (c : Char) : Bool := c == ' ' || c == '\t' || c == '\r'

end Token

/-- A text on one line is taken apart. -/
def scanner (u : Alphabet) : Text.Scanner Token := ⟨Token.isBlank, Token.scan? u⟩

theorem scan?_scanner (u : Alphabet) : (scanner u).scan? = Token.scan? u := rfl

/-! ## Text that is written as tokens -/

/-- The characters are these tokens wherever what follows them is such that none goes on. -/
abbrev Writes (u : Alphabet) (follow : List Char → Prop) (cs : List Char) (ts : List Token) :
    Prop :=
  (scanner u).Writes follow cs ts

section Writes

variable {u : Alphabet}

theorem Writes.blank {follow : List Char → Prop} : Writes u follow [' '] [] :=
  .blanks (List.forall_mem_singleton.mpr rfl)

/-! ### Marks -/

theorem mark?_of_find? (mark : String) {cs after : List Char} {t : Token}
    (h : Token.marks.find? (fun m => m.1.toList.isPrefixOf cs) = some (mark, t))
    (hafter : cs.drop mark.length = after) : Token.mark? cs = some (t, after) := by
  rw [Token.mark?, h, ← hafter]
  rfl

theorem scan?_period {rest : List Char} (h : rest.head? ≠ some '.') :
    Token.scan? u ('.' :: rest) = some (.period, rest) := by
  have hscan : Token.scan? u ('.' :: rest) = Token.mark? ('.' :: rest) := rfl
  cases rest with
  | nil => rfl
  | cons c cs =>
    have hc : '.' ≠ c := fun heq => h (heq ▸ rfl)
    exact hscan.trans (mark?_of_find? "." (by simp [Token.marks, List.isPrefixOf, hc]) rfl)

theorem scan?_unary {rest : List Char} {op : UnaryOp} (hne : rest.head? ≠ some '=')
    (haddr : op = .addr → rest.head? ≠ some '&' ∧ rest.head? ≠ some '^') :
    Token.scan? u (op.render.toList ++ rest) = some (.unary op, rest) := by
  have hscan : Token.scan? u (op.render.toList ++ rest) =
      Token.mark? (op.render.toList ++ rest) := by
    cases op <;> rfl
  cases rest with
  | nil => cases op <;> rfl
  | cons c cs =>
    have hc : '=' ≠ c := fun heq => hne (heq ▸ rfl)
    rw [hscan]
    refine mark?_of_find? op.render ?_ (by cases op <;> rfl)
    cases op with
    | addr =>
      have hamp : '&' ≠ c := fun heq => (haddr rfl).1 (heq ▸ rfl)
      have hcaret : '^' ≠ c := fun heq => (haddr rfl).2 (heq ▸ rfl)
      simp [UnaryOp.render, Token.marks, List.isPrefixOf, hc, hamp, hcaret]
    | deref => simp [UnaryOp.render, Token.marks, List.isPrefixOf, hc]
    | not => simp [UnaryOp.render, Token.marks, List.isPrefixOf, hc]

theorem Writes.openParen {follow : List Char → Prop} : Writes u follow ['('] [.openParen] :=
  .mark rfl fun _ => rfl

theorem Writes.closeParen {follow : List Char → Prop} : Writes u follow [')'] [.closeParen] :=
  .mark rfl fun _ => rfl

theorem Writes.openBracket {follow : List Char → Prop} : Writes u follow ['['] [.openBracket] :=
  .mark rfl fun _ => rfl

theorem Writes.closeBracket {follow : List Char → Prop} : Writes u follow [']'] [.closeBracket] :=
  .mark rfl fun _ => rfl

theorem Writes.comma {follow : List Char → Prop} : Writes u follow [',', ' '] [.comma] := by
  have hmark : Writes u (fun _ => True) [','] [.comma] := .mark rfl fun _ => rfl
  exact hmark.followedBy Writes.blank

theorem Writes.unary (op : UnaryOp) :
    Writes u (fun rest => rest.head? ≠ some '=' ∧
      (op = .addr → rest.head? ≠ some '&' ∧ rest.head? ≠ some '^')) op.render.toList
      [.unary op] := by
  obtain ⟨c, hchars, hc⟩ : ∃ c, op.render.toList = [c] ∧ Token.isBlank c = false := by
    cases op <;> exact ⟨_, rfl, rfl⟩
  rw [hchars]
  refine .of_scan hc fun rest hrest => ?_
  have hscan := scan?_unary (u := u) hrest.1 hrest.2
  rwa [hchars] at hscan

/-- An operator with two operands stands between blanks. -/
theorem Writes.binary {follow : List Char → Prop} (op : BinaryOp) :
    Writes u follow (' ' :: (op.render.toList ++ [' '])) [.binary op] := by
  have hop : Writes u (fun rest => rest.head? = some ' ') op.render.toList [.binary op] := by
    have hscan : ∀ rest, Token.scan? u (op.render.toList ++ ' ' :: rest) =
        some (.binary op, ' ' :: rest) := by
      cases op <;> exact fun _ => rfl
    obtain ⟨c, cs, hchars, hc⟩ : ∃ c cs, op.render.toList = c :: cs ∧ Token.isBlank c = false := by
      cases op <;> exact ⟨_, _, rfl, rfl⟩
    rw [hchars] at hscan ⊢
    refine .of_scan hc fun rest hrest => ?_
    obtain ⟨rest, rfl⟩ := List.head?_eq_some_iff.mp hrest
    exact hscan rest
  exact Writes.blank.followedBy (hop.append Writes.blank fun _ _ => rfl)

/-! ### Names -/

theorem isLetter_of_isBlank {c : Char} (h : Token.isBlank c = true) : u.isLetter c = false := by
  simp only [Token.isBlank, Bool.or_eq_true, beq_iff_eq] at h
  rcases h with (rfl | rfl) | rfl <;> rfl

/-- No letter or digit comes next. -/
def NameEnds (u : Alphabet) (rest : List Char) : Prop := ∀ c ∈ rest.head?, u.continues c = false

theorem Writes.name {name : String} (h : u.IsName name) :
    Writes u (NameEnds u) name.toList [.name name] := by
  obtain ⟨c, cs, hname, hc, hcs⟩ := h.spelled
  have hblank : Token.isBlank c = false := by
    rw [Bool.eq_false_iff]
    intro hblank
    rw [isLetter_of_isBlank hblank] at hc
    cases hc
  rw [hname]
  refine .of_scan hblank fun rest hrest => ?_
  rw [scan?_scanner, Token.scan?, if_pos hc, Text.takeWhile_run hcs hrest,
    Text.dropWhile_run hcs hrest, ← hname, String.ofList_toList]

/-! ### Numbers -/

theorem isLetter_of_isDigit {c : Char} (h : c.isDigit = true) : u.isLetter c = false := by
  have hne : c ≠ '_' := fun heq => by rw [heq] at h; cases h
  rw [Alphabet.isLetter, if_pos (Text.isAscii_of_isDigit h), Text.not_isAlpha_of_isDigit h]
  simpa using hne

theorem continues_of_isDigit {c : Char} (h : c.isDigit = true) : u.continues c = true := by
  rw [Alphabet.continues, Alphabet.isDigit, if_pos (Text.isAscii_of_isDigit h), h, Bool.or_true]

theorem isBlank_of_isDigit {c : Char} (h : c.isDigit = true) : Token.isBlank c = false := by
  rw [Bool.eq_false_iff]
  intro hblank
  simp only [Token.isBlank, Bool.or_eq_true, beq_iff_eq] at hblank
  rcases hblank with (rfl | rfl) | rfl <;> cases h

/-- No letter or digit comes next, and no point. -/
def NumberEnds (u : Alphabet) (rest : List Char) : Prop :=
  ∀ c ∈ rest.head?, u.continues c = false ∧ c ≠ '.'

theorem number?_toDigits (n : Nat) {rest : List Char} (h : NumberEnds u rest) :
    Token.number? u (Nat.toDigits 10 n ++ rest) = some (n, rest) := by
  have hdigit : ∀ c ∈ Nat.toDigits 10 n, c.isDigit = true :=
    fun c hc => Nat.isDigit_of_mem_toDigits (by decide) (by decide) hc
  have hend : ∀ c ∈ rest.head?, c.isDigit = false := by
    intro c hc
    rw [Bool.eq_false_iff]
    intro hdigit
    exact Bool.false_ne_true ((h c hc).1.symm.trans (continues_of_isDigit hdigit))
  have hafter : rest.head?.any (fun c => u.continues c || c == '.') = false := by
    cases rest with
    | nil => rfl
    | cons c rest => simp [(h c rfl).1, (h c rfl).2]
  have hzero := Yaml.Plain.not_leadingZero_toDigits n
  rw [Token.number?, Text.takeWhile_run hdigit hend, Text.dropWhile_run hdigit hend, hafter]
  simp [hzero, Nat.ofDigitChars_ten_toDigits]

theorem exists_digit_toString (n : Nat) :
    ∃ c cs, (toString (n : Int)).toList = c :: cs ∧ c.isDigit = true := by
  obtain ⟨c, cs, hcs, hc⟩ := Yaml.Plain.exists_toDigits_eq_cons n
  exact ⟨c, cs, Nat.toList_repr.trans hcs, hc⟩

theorem Writes.number (n : Nat) :
    Writes u (NumberEnds u) (toString (n : Int)).toList [.number n] := by
  obtain ⟨c, cs, hcs, hc⟩ := exists_digit_toString n
  have hdigits : c :: cs = Nat.toDigits 10 n := hcs.symm.trans Nat.toList_repr
  rw [hcs]
  refine .of_scan (isBlank_of_isDigit hc) fun rest hrest => ?_
  rw [scan?_scanner, Token.scan?, if_neg (by simp [isLetter_of_isDigit hc]), if_pos hc,
    ← List.cons_append, hdigits, number?_toDigits n hrest]
  rfl

/-! ### String literals -/

theorem literal?_escape (cs rest : List Char) :
    Token.literal? (cs.flatMap escapeChar ++ '"' :: rest) = some (cs, rest) := by
  induction cs with
  | nil => rfl
  | cons c cs ih =>
    have hstep : Token.literal? (escapeChar c ++ (cs.flatMap escapeChar ++ '"' :: rest)) =
        (Token.literal? (cs.flatMap escapeChar ++ '"' :: rest)).map
          fun (values, after) => (c :: values, after) := by
      unfold escapeChar
      split
      · rfl
      · rfl
      · rfl
      · rfl
      · rfl
      · next hquote hslash hfeed _ _ =>
        rw [List.singleton_append, Token.literal?.eq_3 _ _ hquote fun _ _ heq _ => hslash heq]
        exact if_neg fun h => h.elim hfeed hslash
    rw [List.flatMap_cons, List.append_assoc, hstep, ih]
    rfl

theorem Writes.text {follow : List Char → Prop} (value : String) :
    Writes u follow (quote value).toList [.text value] := by
  have hquote : (quote value).toList = '"' :: (value.toList.flatMap escapeChar ++ ['"']) := by
    simp [quote]
  rw [hquote]
  refine .of_scan rfl fun rest _ => ?_
  have hscan : Token.scan? u ('"' :: (value.toList.flatMap escapeChar ++ ['"'] ++ rest)) =
      (Token.literal? (value.toList.flatMap escapeChar ++ ['"'] ++ rest)).map
        fun (value, after) => (.text (.ofList value), after) := rfl
  rw [scan?_scanner, hscan, List.append_assoc, List.singleton_append, literal?_escape]
  simp

end Writes

end Tablewright.Code
