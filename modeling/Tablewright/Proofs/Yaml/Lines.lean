import Tablewright.Proofs.Text.Letters
import Tablewright.Yaml.Print
import Tablewright.Yaml.Scalar

/-! The lines that stand after what has been read. Each of them is indented by blanks, begins with a
token, and is reached from the end of the line before it. -/

namespace Tablewright.Yaml

/-- Whether the character is neither a blank nor a break. -/
def isSolid (c : Char) : Bool := !isBlank c && !isBreak c

theorem isSolid_iff {c : Char} : isSolid c = true ↔ isBlank c = false ∧ isBreak c = false := by
  simp [isSolid]

theorem atGap_cons {c : Char} {rest : List Char} : atGap (c :: rest) = !isSolid c := by
  simp [isSolid, atGap]

/-! ### Characters of words -/

/-- The characters of the words that need no quotes whatever stands around them: keys, numerals,
and the words for flags and for nothing. -/
def isWordChar (c : Char) : Bool := c.isAlphanum || c == '_'

section WordChar

variable {c : Char}

theorem toNat_lt_of_isWordChar (h : isWordChar c = true) : c.toNat < 128 := by
  rcases Bool.or_eq_true_iff.mp h with h | h
  · rcases Bool.or_eq_true_iff.mp h with halpha | hdigit
    · exact Text.toNat_lt_of_isAlpha halpha
    · have hle : c.val ≤ '9'.val := of_decide_eq_true (Bool.and_eq_true_iff.mp hdigit).2
      exact Nat.lt_of_le_of_lt (UInt32.le_iff_toNat_le.mp hle) (by decide)
  · rw [beq_iff_eq.mp h]
    decide

/-- What holds of the first characters wherever they belong to words holds of all of words. -/
theorem of_isWordChar {p : Char → Bool}
    (hp : ∀ n < 128, isWordChar (.ofNat n) = true → p (.ofNat n) = true)
    (h : isWordChar c = true) : p c = true :=
  Text.of_toNat_lt (p := fun c => isWordChar c = true → p c = true) hp (toNat_lt_of_isWordChar h) h

theorem isPrintable_of_isWordChar : isWordChar c = true → isPrintable c = true :=
  of_isWordChar (p := isPrintable) (by decide +kernel)

theorem isSolid_of_isWordChar : isWordChar c = true → isSolid c = true :=
  of_isWordChar (p := isSolid) (by decide +kernel)

/-- No structure begins with the character of a word. -/
theorem isInner_of_isWordChar (h : isWordChar c = true) :
    isIndicator c = false ∧ isGapIndicator c = false ∧ c ≠ '.' := by
  have hc : (!isIndicator c && !isGapIndicator c && c != '.') = true :=
    of_isWordChar (p := fun c => !isIndicator c && !isGapIndicator c && c != '.')
      (by decide +kernel) h
  simpa only [Bool.and_eq_true, Bool.not_eq_true', bne_iff_ne, and_assoc] using hc

end WordChar

/-! ### Tokens -/

/-- What a line of a block collection begins with after its indentation: the dash of an item, or a
word that is a key. No line is left at the end of the text. -/
inductive Token : List Char → Prop
  | done : Token []
  | item (rest : List Char) : Token ('-' :: ' ' :: rest)
  | key {c : Char} (h : isWordChar c = true) (rest : List Char) : Token (c :: rest)

namespace Token

theorem head {c : Char} {rest : List Char} (h : Token (c :: rest)) :
    isSolid c = true ∧ c ≠ '#' ∧ c ≠ ':' := by
  cases h with
  | item rest => exact ⟨by decide, by decide, by decide⟩
  | key h rest =>
    obtain ⟨hi, hg, _⟩ := isInner_of_isWordChar h
    refine ⟨isSolid_of_isWordChar h, ?_, ?_⟩
    · rintro rfl; cases hi
    · rintro rfl; cases hg

theorem isEmpty_or_atGap {text : List Char} (h : Token text) : text = [] ∨ atGap text = false := by
  cases text with
  | nil => exact .inl rfl
  | cons c rest => exact .inr (by rw [atGap_cons, h.head.1]; rfl)

theorem atMarker_eq {text : List Char} (h : Token text) : atMarker text = false := by
  cases h with
  | done => rfl
  | item rest => rfl
  | @key c h rest =>
    obtain ⟨_, hg, hd⟩ := isInner_of_isWordChar h
    have hdash : c ≠ '-' := by rintro rfl; cases hg
    unfold atMarker
    split
    · next heq => exact absurd (List.cons.inj heq).1 hdash
    · next heq => exact absurd (List.cons.inj heq).1 hd
    · rfl

end Token

/-! ### Lines -/

/-- The lines that are left: the indentation of the first, and what follows it. -/
structure Lines where
  indent : Nat
  text : List Char

namespace Written

@[simp] theorem spaces_zero : spaces 0 = [] := rfl

theorem spaces_succ (n : Nat) : spaces (n + 1) = ' ' :: spaces n := rfl

@[simp] theorem length_spaces (n : Nat) : (spaces n).length = n := List.length_replicate

end Written

namespace Lines

def chars (t : Lines) : List Char := Written.spaces t.indent ++ t.text

theorem length_chars (t : Lines) : t.chars.length = t.indent + t.text.length := by
  simp [chars]

/-- A list at `column` ends before the lines. -/
def endsList (t : Lines) (column : Nat) : Prop :=
  t.indent ≤ column ∧ (t.indent = column → t.text.head? ≠ some '-')

/-- A record at `column` ends before the lines. -/
def endsRecord (t : Lines) (column : Nat) : Prop :=
  t.indent ≤ column ∧ (t.indent = column → t.text = [])

/-- What stands further in ends before lines that are not. -/
theorem endsRecord_of_le {t : Lines} {column : Nat} (h : t.indent ≤ column) :
    t.endsRecord (column + 2) :=
  ⟨by omega, fun hindent => by omega⟩

theorem endsRecord.endsList {t : Lines} {column : Nat} (h : t.endsRecord column) :
    t.endsList column := by
  refine ⟨h.1, fun hindent => ?_⟩
  rw [h.2 hindent]
  simp

end Lines

namespace Cursor

open Written

theorem skipFrom_spaces (line column n : Nat) (isFresh : Bool) (text : List Char) :
    skipFrom false line column isFresh false (spaces n ++ text) =
      skipFrom false line (column + n) isFresh false text := by
  induction n generalizing column with
  | zero => rfl
  | succ n ih =>
    rw [spaces_succ, List.cons_append, skipFrom, if_neg (by decide), if_neg (by decide),
      if_pos (by simp), ih, Nat.add_right_comm, Nat.add_assoc]

theorem skipFrom_solid {c : Char} (hs : isSolid c = true) (hc : c ≠ '#') (line column : Nat)
    (isFresh : Bool) (rest : List Char) :
    skipFrom false line column isFresh false (c :: rest) = ⟨line, column, isFresh, c :: rest⟩ := by
  simp only [isSolid, isBlank, Bool.and_eq_true, Bool.not_eq_true', Bool.or_eq_false_iff,
    beq_eq_false_iff_ne] at hs
  simp [skipFrom, hs, hc]

theorem skipFrom_token {text : List Char} (h : Token text) (line column : Nat) (isFresh : Bool) :
    skipFrom false line column isFresh false text = ⟨line, column, isFresh, text⟩ := by
  cases text with
  | nil => rfl
  | cons c rest => exact skipFrom_solid h.head.1 h.head.2.1 line column isFresh rest

theorem skip_space {c : Cursor} {text : List Char} (h : c.rest = ' ' :: text) (ht : Token text) :
    c.skip false = ⟨c.line, c.column + 1, c.isFresh, text⟩ := by
  have hspace : ' ' :: text = spaces 1 ++ text := rfl
  rw [Cursor.skip, h, hspace, skipFrom_spaces, skipFrom_token ht]

/-- The place is the first token of the lines, or the end of the line before them. -/
def Leaves (c : Cursor) (t : Lines) : Prop :=
  (∃ line, c = ⟨line, t.indent, true, t.text⟩) ∨ c.rest = '\n' :: t.chars

theorem Leaves.skip {c : Cursor} {t : Lines} (h : c.Leaves t) (ht : Token t.text) :
    ∃ line, c.skip false = ⟨line, t.indent, true, t.text⟩ := by
  rcases h with ⟨line, rfl⟩ | h
  · exact ⟨line, skipFrom_token ht line t.indent true⟩
  · refine ⟨c.line + 1, ?_⟩
    rw [Cursor.skip, h, skipFrom, if_pos (by decide), Lines.chars, Bool.not_false, Bool.or_true,
      skipFrom_spaces, skipFrom_token ht, Nat.zero_add]

theorem isEnd_token {text : List Char} (h : Token text) (line column : Nat) (isFresh : Bool) :
    isEnd ⟨line, column, isFresh, text⟩ = text.isEmpty := by
  simp [isEnd, h.atMarker_eq]

theorem isEnd_token_pos {text : List Char} (h : Token text) (hpos : 0 < text.length)
    (line column : Nat) (isFresh : Bool) : isEnd ⟨line, column, isFresh, text⟩ = false := by
  rw [isEnd_token h, List.isEmpty_eq_false_iff, ← List.length_pos_iff]
  exact hpos

/-- After the last entry of a collection comes a token further out, or none. -/
theorem outside_of_endsRecord {t : Lines} {column : Nat} (h : t.endsRecord column)
    (ht : Token t.text) (line : Nat) :
    t.indent < column ∨ isEnd ⟨line, t.indent, true, t.text⟩ = true := by
  by_cases hindent : t.indent = column
  · refine .inr ?_
    rw [isEnd_token ht, h.2 hindent]
    rfl
  · exact .inl (Nat.lt_of_le_of_ne h.1 hindent)

/-- No key ends where a line is left. -/
theorem Leaves.no_colon {c : Cursor} {t : Lines} (h : c.Leaves t) (ht : Token t.text) :
    c.rest.takeWhile isBlank = [] ∧ c.isMark ':' = false := by
  rcases h with ⟨line, rfl⟩ | h
  · cases htext : t.text with
    | nil => exact ⟨rfl, rfl⟩
    | cons d rest =>
      obtain ⟨hsolid, _, hcolon⟩ := (htext ▸ ht).head
      simp [(isSolid_iff.mp hsolid).1, Cursor.isMark, hcolon]
  · rw [h, isMark, h]
    exact ⟨rfl, rfl⟩

theorem Leaves.length_text {c : Cursor} {t : Lines} (h : c.Leaves t) :
    t.text.length ≤ c.rest.length := by
  rcases h with ⟨line, rfl⟩ | h
  · exact Nat.le_refl _
  · rw [h, List.length_cons, t.length_chars]; omega

theorem Leaves.length_le {c : Cursor} {t : Lines} (h : c.Leaves t) :
    c.rest.length ≤ t.chars.length + 1 := by
  rcases h with ⟨line, rfl⟩ | h
  · simp only [Lines.length_chars]; omega
  · exact Nat.le_of_eq (by rw [h, List.length_cons])

end Cursor

end Tablewright.Yaml
