import Tablewright.Proofs.Text.Decimal
import Tablewright.Proofs.Text.Runs
import Tablewright.Proofs.Text.Scanner
import Tablewright.Proofs.Text.Split
import Tablewright.Proofs.Yaml.Numerals
import Tablewright.Value.Json

/-! A value is read back from its JSON. The reader is that of the format: blanks may stand between
any tokens, a comma only between two members, and strings may have every escape but those of
characters in two halves. Numbers are whole and have no sign. -/

namespace Tablewright.Json

open Text

/-! ## Tokens -/

inductive Token
  | openBracket
  | closeBracket
  | openBrace
  | closeBrace
  | comma
  | colon
  | null
  | flag (b : Bool)
  | number (n : Nat)
  /-- A string, with the text that it stands for. -/
  | text (s : String)
deriving DecidableEq

namespace Token

def isBlank (c : Char) : Bool := c == ' ' || c == '\t' || c == '\n' || c == '\r'

/-- Tokens that have one spelling. -/
def fixed : List (String × Token) := [
  ("[", openBracket), ("]", closeBracket), ("\x7b", openBrace), ("\x7d", closeBrace), (",", comma),
  (":", colon), ("null", null), ("true", flag true), ("false", flag false)]

def fixed? (cs : List Char) : Option (Token × List Char) :=
  fixed.findSome? fun (spelling, t) => (dropStart? spelling.toList cs).map (t, ·)

/-- The number that a text begins with. None but zero begins with a zero. -/
def number? (cs : List Char) : Option (Nat × List Char) :=
  let digits := cs.takeWhile Char.isDigit
  if digits.head? = some '0' ∧ digits ≠ ['0'] then none
  else (numeral? digits).map (·, cs.dropWhile Char.isDigit)

/-- The character that a letter behind a backslash stands for. -/
def unescape? : Char → Option Char
  | '"' => some '"'
  | '\\' => some '\\'
  | '/' => some '/'
  | 'b' => some '\x08'
  | 'f' => some '\x0c'
  | 'n' => some '\n'
  | 'r' => some '\r'
  | 't' => some '\t'
  | _ => none

/-- What a string stands for, read from behind its first quote, and what follows it. -/
def literal? : List Char → Option (List Char × List Char)
  | [] => none
  | '"' :: rest => some ([], rest)
  | '\\' :: 'u' :: a :: b :: c :: d :: rest => do
    let char ← (Yaml.Plain.digits? 16 0 [a, b, c, d]).bind Yaml.Scalar.charOfCode?
    (literal? rest).map fun (cs, after) => (char :: cs, after)
  | '\\' :: c :: rest => do
    let char ← unescape? c
    (literal? rest).map fun (cs, after) => (char :: cs, after)
  | c :: rest =>
    if c = '\\' ∨ c.toNat < 0x20 then none
    else (literal? rest).map fun (cs, after) => (c :: cs, after)

def scan? : List Char → Option (Token × List Char)
  | [] => none
  | c :: rest =>
    if c = '"' then (literal? rest).map fun (cs, after) => (text (.ofList cs), after)
    else if c.isDigit then (number? (c :: rest)).map fun (n, after) => (number n, after)
    else fixed? (c :: rest)

end Token

def scanner : Scanner Token := ⟨Token.isBlank, Token.scan?⟩

/-! ## Values -/

mutual

def value? : List Token → Option (Value × List Token)
  | .null :: ts => some (.null, ts)
  | .flag b :: ts => some (.flag b, ts)
  | .number n :: ts => some (.number n, ts)
  | .text s :: ts => some (.text s, ts)
  | .openBracket :: .closeBracket :: ts => some (.list [], ts)
  | .openBracket :: ts => (items? ts).map fun (vs, after) => (.list vs, after)
  | .openBrace :: .closeBrace :: ts => some (.record [], ts)
  | .openBrace :: ts => (fields? ts).map fun (fields, after) => (.record fields, after)
  | _ => none
termination_by ts => (ts.length, 0)

/-- One item or more, and the bracket that closes them. -/
def items? (ts : List Token) : Option (List Value × List Token) :=
  match taken? ts (value? ts) with
  | some ⟨v, .comma :: rest, _⟩ => (items? rest).map fun (vs, after) => (v :: vs, after)
  | some ⟨v, .closeBracket :: rest, _⟩ => some ([v], rest)
  | _ => none
termination_by (ts.length, 1)
decreasing_by all_goals grind

/-- One field or more, and the brace that closes them. -/
def fields? : List Token → Option (List (String × Value) × List Token)
  | .text key :: .colon :: ts =>
    match taken? ts (value? ts) with
    | some ⟨v, .comma :: rest, _⟩ =>
      (fields? rest).map fun (fields, after) => ((key, v) :: fields, after)
    | some ⟨v, .closeBrace :: rest, _⟩ => some ([(key, v)], rest)
    | _ => none
  | _ => none
termination_by ts => (ts.length, 0)
decreasing_by all_goals grind

end

/-! ## Text that is written as tokens -/

/-- No digit comes next. -/
def NumberEnds (rest : List Char) : Prop := ∀ c ∈ rest.head?, c.isDigit = false

theorem numberEnds_cons {c : Char} (h : c.isDigit = false) (rest : List Char) :
    NumberEnds (c :: rest) := by
  rintro d ⟨⟩
  exact h

theorem isDigit_of_isBlank {c : Char} (h : Token.isBlank c = true) : c.isDigit = false := by
  simp only [Token.isBlank, Bool.or_eq_true, beq_iff_eq] at h
  rcases h with ((rfl | rfl) | rfl) | rfl <;> rfl

section Writes

variable {follow : List Char → Prop}

/-- A token of one spelling is written as it is spelled. -/
theorem writes_fixed (spelling : String) (t : Token) (h : (spelling, t) ∈ Token.fixed) :
    scanner.Writes follow spelling.toList [t] := by
  simp only [Token.fixed, List.mem_cons, List.not_mem_nil, or_false, Prod.mk.injEq] at h
  rcases h with ⟨rfl, rfl⟩ | ⟨rfl, rfl⟩ | ⟨rfl, rfl⟩ | ⟨rfl, rfl⟩ | ⟨rfl, rfl⟩ | ⟨rfl, rfl⟩ |
      ⟨rfl, rfl⟩ | ⟨rfl, rfl⟩ | ⟨rfl, rfl⟩ <;>
    exact .of_scan rfl fun _ _ => rfl

theorem number?_toDigits (n : Nat) {rest : List Char} (h : NumberEnds rest) :
    Token.number? (Nat.toDigits 10 n ++ rest) = some (n, rest) := by
  have hdigit : ∀ c ∈ Nat.toDigits 10 n, c.isDigit = true :=
    fun c hc => Nat.isDigit_of_mem_toDigits (by decide) (by decide) hc
  unfold Token.number?
  dsimp only
  rw [takeWhile_run hdigit h, dropWhile_run hdigit h,
    if_neg (Yaml.Plain.not_leadingZero_toDigits n), numeral?_toDigits, Option.map_some]

theorem writes_number (n : Nat) : scanner.Writes NumberEnds (toString n).toList [.number n] := by
  have hdigits : (toString n).toList = Nat.toDigits 10 n := Nat.toList_repr
  obtain ⟨c, cs, hcs, hc⟩ := Yaml.Plain.exists_toDigits_eq_cons n
  have hquote : c ≠ '"' := by
    rintro rfl
    cases hc
  have hblank : Token.isBlank c = false := by
    rw [Bool.eq_false_iff]
    intro hblank
    rw [isDigit_of_isBlank hblank] at hc
    cases hc
  rw [hdigits, hcs]
  refine .of_scan hblank fun rest hrest => ?_
  show Token.scan? (c :: (cs ++ rest)) = _
  rw [Token.scan?, if_neg hquote, if_pos hc, ← List.cons_append, ← hcs, number?_toDigits n hrest,
    Option.map_some]

/-- A control character is read back from its code. -/
theorem literal?_code (c : Char) (h : c.toNat < 0x20) (rest : List Char) :
    Token.literal? (['\\', 'u'] ++ hex 4 c.toNat ++ rest) =
      (Token.literal? rest).map fun (cs, after) => (c :: cs, after) := by
  have hcode : (Yaml.Plain.digits? 16 0 (hex 4 c.toNat)).bind Yaml.Scalar.charOfCode? = some c := by
    rw [Yaml.Plain.digits?_hex (Nat.lt_trans h (by decide)), Option.bind_some,
      Yaml.Scalar.charOfCode?_toNat]
  obtain ⟨a, b, d, e, hdigits⟩ : ∃ a b d e, hex 4 c.toNat = [a, b, d, e] := ⟨_, _, _, _, rfl⟩
  rw [hdigits] at hcode ⊢
  have hchars : ['\\', 'u'] ++ [a, b, d, e] ++ rest = '\\' :: 'u' :: a :: b :: d :: e :: rest := rfl
  rw [hchars, Token.literal?, hcode, Option.bind_eq_bind, Option.bind_some]

theorem literal?_jsonChar (c : Char) (rest : List Char) :
    Token.literal? (Value.jsonChar c ++ rest) =
      (Token.literal? rest).map fun (cs, after) => (c :: cs, after) := by
  unfold Value.jsonChar
  split
  · rfl
  · rfl
  · rfl
  · rfl
  · rfl
  · rfl
  · rfl
  · next hquote hslash _ _ _ _ _ =>
    split
    · next hcontrol => exact literal?_code c hcontrol rest
    · next hcontrol =>
      rw [List.singleton_append, Token.literal?.eq_5 _ _ hquote (fun _ _ _ _ _ h _ => hslash h)
        fun _ _ h _ => hslash h]
      exact if_neg fun h => h.elim hslash hcontrol

theorem literal?_jsonChars (cs rest : List Char) :
    Token.literal? (cs.flatMap Value.jsonChar ++ '"' :: rest) = some (cs, rest) := by
  induction cs with
  | nil => rfl
  | cons c cs ih =>
    rw [List.flatMap_cons, List.append_assoc, literal?_jsonChar, ih, Option.map_some]

theorem writes_jsonString (s : String) :
    scanner.Writes follow (Value.jsonString s).toList [.text s] := by
  rw [Value.jsonString, String.toList_ofList, List.cons_append]
  refine .of_scan rfl fun rest _ => ?_
  show Token.scan? ('"' :: (s.toList.flatMap Value.jsonChar ++ ['"'] ++ rest)) = _
  rw [Token.scan?, if_pos rfl, List.append_assoc, List.singleton_append, literal?_jsonChars]
  simp

theorem writes_jsonBreak (level : Nat) :
    scanner.Writes follow (Value.jsonBreak level).toList [] := by
  rw [Value.jsonBreak, String.toList_ofList]
  refine .blanks (List.forall_mem_cons.mpr ⟨rfl, fun c hc => ?_⟩)
  obtain rfl := List.eq_of_mem_replicate hc
  rfl

theorem writes_separator (level : Nat) :
    scanner.Writes follow ("," ++ Value.jsonBreak level).toList [.comma] := by
  rw [String.toList_append]
  exact (writes_fixed "," .comma (by decide)).followedBy (writes_jsonBreak level)

end Writes

section Block

variable {follow : List Char → Prop} {opening closing : String} {first last : Token}
  (hfirst : (opening, first) ∈ Token.fixed) (hlast : (closing, last) ∈ Token.fixed)

include hfirst hlast

theorem writes_jsonBlock_nil (level : Nat) :
    scanner.Writes follow (Value.jsonBlock opening closing level []).toList [first, last] := by
  rw [Value.jsonBlock, List.isEmpty_nil, if_pos rfl, String.toList_append]
  exact (writes_fixed _ _ hfirst).followedBy (writes_fixed _ _ hlast)

theorem writes_jsonBlock {level : Nat} {members : List String} (hne : members ≠ [])
    {ts : List Token} (h : scanner.Writes NumberEnds
      (join ("," ++ Value.jsonBreak (level + 1)) members).toList ts) :
    scanner.Writes follow (Value.jsonBlock opening closing level members).toList
      (first :: (ts ++ [last])) := by
  have hend : scanner.Writes follow ((Value.jsonBreak level).toList ++ closing.toList) [last] :=
    (writes_jsonBreak level).followedBy (writes_fixed _ _ hlast)
  have hbreak : ∀ rest, NumberEnds ((Value.jsonBreak level).toList ++ closing.toList ++ rest) := by
    intro rest
    rw [Value.jsonBreak, String.toList_ofList]
    exact numberEnds_cons rfl _
  have htext : (Value.jsonBlock opening closing level members).toList =
      opening.toList ++ ((Value.jsonBreak (level + 1)).toList ++
        ((join ("," ++ Value.jsonBreak (level + 1)) members).toList ++
          ((Value.jsonBreak level).toList ++ closing.toList))) := by
    simp [Value.jsonBlock, hne]
  rw [htext]
  refine (writes_fixed _ _ hfirst).followedBy ((writes_jsonBreak _).followedBy ?_)
  exact h.append hend fun rest _ => hbreak rest

end Block

/-! ## Tokens that are read as a value -/

/-- The tokens are read as the value, whatever follows them. -/
def Reads (ts : List Token) (v : Value) : Prop := ∀ rest, value? (ts ++ rest) = some (v, rest)

/-- The tokens are read as items, up to the bracket that closes them. -/
def ReadsItems (ts : List Token) (vs : List Value) : Prop :=
  ∀ rest, items? (ts ++ .closeBracket :: rest) = some (vs, rest)

/-- The tokens are read as fields, up to the brace that closes them. -/
def ReadsFields (ts : List Token) (fields : List (String × Value)) : Prop :=
  ∀ rest, fields? (ts ++ .closeBrace :: rest) = some (fields, rest)

section Reads

variable {ts ts' : List Token} {v : Value} {vs : List Value} {key : String}
  {fields : List (String × Value)}

theorem Reads.length_lt (h : Reads ts v) (rest : List Token) :
    rest.length < (ts ++ rest).length := by
  have hne : ts ≠ [] := by
    rintro rfl
    have hread := h []
    rw [List.append_nil, value?] at hread
    · cases hread
    all_goals simp
  simp [List.length_pos_iff.mpr hne]

theorem Reads.taken (h : Reads ts v) (rest : List Token) :
    taken? (ts ++ rest) (value? (ts ++ rest)) = some ⟨v, rest, h.length_lt rest⟩ := by
  rw [h rest, taken?_of_lt]

theorem ReadsItems.single (h : Reads ts v) : ReadsItems ts [v] := by
  intro rest
  rw [items?, h.taken]

theorem ReadsItems.cons (h : Reads ts v) (hrest : ReadsItems ts' vs) :
    ReadsItems (ts ++ .comma :: ts') (v :: vs) := by
  intro rest
  rw [List.append_assoc, List.cons_append, items?, h.taken]
  simp [hrest rest]

theorem ReadsItems.list (h : ReadsItems ts vs) :
    Reads (.openBracket :: (ts ++ [.closeBracket])) (.list vs) := by
  intro rest
  have hstart : ∀ after, ts ++ .closeBracket :: rest ≠ .closeBracket :: after := by
    intro after heq
    have hread := h rest
    rw [heq, items?, value?] at hread
    · cases hread
    all_goals simp
  rw [List.cons_append, List.append_assoc, List.singleton_append, value?, h rest, Option.map_some]
  exact hstart

theorem ReadsFields.single (h : Reads ts v) :
    ReadsFields (.text key :: .colon :: ts) [(key, v)] := by
  intro rest
  rw [List.cons_append, List.cons_append, fields?, h.taken]

theorem ReadsFields.cons (h : Reads ts v) (hrest : ReadsFields ts' fields) :
    ReadsFields (.text key :: .colon :: (ts ++ .comma :: ts')) ((key, v) :: fields) := by
  intro rest
  rw [List.cons_append, List.cons_append, List.append_assoc, List.cons_append, fields?, h.taken]
  simp [hrest rest]

theorem ReadsFields.record (h : ReadsFields ts fields) :
    Reads (.openBrace :: (ts ++ [.closeBrace])) (.record fields) := by
  intro rest
  have hstart : ∀ after, ts ++ .closeBrace :: rest ≠ .closeBrace :: after := by
    intro after heq
    have hread := h rest
    rw [heq, fields?] at hread
    · cases hread
    all_goals simp
  rw [List.cons_append, List.append_assoc, List.singleton_append, value?, h rest, Option.map_some]
  exact hstart

end Reads

/-! ## The text of a value -/

/-- The characters are the tokens of the value. -/
structure Spelled (cs : List Char) (ts : List Token) (v : Value) : Prop where
  writes : scanner.Writes NumberEnds cs ts
  reads : Reads ts v

namespace Spelled

variable {level : Nat}

/-- A value of one token. -/
theorem of_token {cs : List Char} {t : Token} {v : Value}
    (hwrites : scanner.Writes NumberEnds cs [t])
    (hreads : ∀ rest, value? (t :: rest) = some (v, rest)) : Spelled cs [t] v :=
  ⟨hwrites, hreads⟩

theorem null : Spelled (Value.null.json level).toList [.null] .null :=
  of_token (writes_fixed "null" .null (by decide)) fun rest => by rw [value?]

theorem flag (b : Bool) : Spelled ((Value.flag b).json level).toList [.flag b] (.flag b) := by
  refine of_token ?_ fun rest => by rw [value?]
  cases b with
  | true => exact writes_fixed "true" (.flag true) (by decide)
  | false => exact writes_fixed "false" (.flag false) (by decide)

theorem number (n : Nat) : Spelled ((Value.number n).json level).toList [.number n] (.number n) :=
  of_token (writes_number n) fun rest => by rw [value?]

theorem text (s : String) : Spelled ((Value.text s).json level).toList [.text s] (.text s) :=
  of_token (writes_jsonString s) fun rest => by rw [value?]

theorem noItems : Spelled ((Value.list []).json level).toList [.openBracket, .closeBracket]
    (.list []) where
  writes := by
    rw [Value.json]
    exact writes_jsonBlock_nil (by decide) (by decide) level
  reads rest := by rw [List.cons_append, List.singleton_append, value?]

theorem noFields : Spelled ((Value.record []).json level).toList [.openBrace, .closeBrace]
    (.record []) where
  writes := by
    rw [Value.json]
    exact writes_jsonBlock_nil (by decide) (by decide) level
  reads rest := by rw [List.cons_append, List.singleton_append, value?]

end Spelled

/-- The members of a list or a record, as they stand between the brackets. -/
def membersText (level : Nat) (members : List String) : List Char :=
  (join ("," ++ Value.jsonBreak level) members).toList

/-- Behind a member and its comma, the others go on. -/
theorem writes_members {level : Nat} {m : String} {rest : List String} (hne : rest ≠ [])
    {ts ts' : List Token} (h : scanner.Writes NumberEnds m.toList ts)
    (hrest : scanner.Writes NumberEnds (membersText level rest) ts') :
    scanner.Writes NumberEnds (membersText level (m :: rest)) (ts ++ .comma :: ts') := by
  have htext : membersText level (m :: rest) =
      m.toList ++ (("," ++ Value.jsonBreak level).toList ++ membersText level rest) := by
    obtain ⟨m', rest, rfl⟩ := List.exists_cons_of_ne_nil hne
    simp [membersText, join]
  rw [htext]
  refine h.append ((writes_separator level).followedBy hrest) fun after _ => ?_
  rw [String.toList_append, List.append_assoc, List.append_assoc]
  exact numberEnds_cons rfl _

theorem jsonItems_ne_nil {level : Nat} {vs : List Value} (h : vs ≠ []) :
    Value.jsonItems level vs ≠ [] := by
  obtain ⟨v, vs, rfl⟩ := List.exists_cons_of_ne_nil h
  exact List.cons_ne_nil _ _

theorem jsonFields_ne_nil {level : Nat} {fields : List (String × Value)} (h : fields ≠ []) :
    Value.jsonFields level fields ≠ [] := by
  obtain ⟨field, fields, rfl⟩ := List.exists_cons_of_ne_nil h
  exact List.cons_ne_nil _ _

/-- A name, a colon and a value. -/
theorem writes_field {level : Nat} {key : String} {v : Value} {ts : List Token}
    (h : scanner.Writes NumberEnds (v.json level).toList ts) :
    scanner.Writes NumberEnds (Value.jsonString key ++ ": " ++ v.json level).toList
      (.text key :: .colon :: ts) := by
  have hblank : scanner.Writes (fun _ => True) [' '] [] :=
    .blanks (List.forall_mem_singleton.mpr rfl)
  have htext : (Value.jsonString key ++ ": " ++ v.json level).toList =
      (Value.jsonString key).toList ++ (":".toList ++ ([' '] ++ (v.json level).toList)) := by
    simp
  rw [htext]
  exact (writes_jsonString key).followedBy
    ((writes_fixed ":" .colon (by decide)).followedBy (hblank.followedBy h))

mutual

theorem exists_spelled (level : Nat) (v : Value) : ∃ ts, Spelled (v.json level).toList ts v := by
  cases v with
  | null => exact ⟨_, .null⟩
  | flag b => exact ⟨_, .flag b⟩
  | number n => exact ⟨_, .number n⟩
  | text s => exact ⟨_, .text s⟩
  | list items =>
    by_cases hitems : items = []
    · rw [hitems]
      exact ⟨_, .noItems⟩
    · obtain ⟨ts, hwrites, hreads⟩ := exists_spelled_items (level + 1) items hitems
      have hne : Value.jsonItems (level + 1) items ≠ [] := jsonItems_ne_nil hitems
      refine ⟨_, ?_, hreads.list⟩
      rw [Value.json]
      exact writes_jsonBlock (by decide) (by decide) hne hwrites
  | record fields =>
    by_cases hfields : fields = []
    · rw [hfields]
      exact ⟨_, .noFields⟩
    · obtain ⟨ts, hwrites, hreads⟩ := exists_spelled_fields (level + 1) fields hfields
      have hne : Value.jsonFields (level + 1) fields ≠ [] := jsonFields_ne_nil hfields
      refine ⟨_, ?_, hreads.record⟩
      rw [Value.json]
      exact writes_jsonBlock (by decide) (by decide) hne hwrites

theorem exists_spelled_items (level : Nat) (vs : List Value) (hne : vs ≠ []) :
    ∃ ts, scanner.Writes NumberEnds (membersText level (Value.jsonItems level vs)) ts ∧
      ReadsItems ts vs := by
  cases vs with
  | nil => exact absurd rfl hne
  | cons v vs =>
    obtain ⟨ts, hv⟩ := exists_spelled level v
    by_cases hvs : vs = []
    · rw [hvs]
      exact ⟨ts, hv.writes, .single hv.reads⟩
    · obtain ⟨ts', hwrites, hreads⟩ := exists_spelled_items level vs hvs
      exact ⟨_, writes_members (jsonItems_ne_nil hvs) hv.writes hwrites, .cons hv.reads hreads⟩

theorem exists_spelled_fields (level : Nat) (fields : List (String × Value)) (hne : fields ≠ []) :
    ∃ ts, scanner.Writes NumberEnds (membersText level (Value.jsonFields level fields)) ts ∧
      ReadsFields ts fields := by
  cases fields with
  | nil => exact absurd rfl hne
  | cons field fields =>
    obtain ⟨key, v⟩ := field
    obtain ⟨ts, hv⟩ := exists_spelled level v
    by_cases hfields : fields = []
    · rw [hfields]
      exact ⟨_, writes_field hv.writes, .single hv.reads⟩
    · obtain ⟨ts', hwrites, hreads⟩ := exists_spelled_fields level fields hfields
      exact ⟨_, writes_members (jsonFields_ne_nil hfields) (writes_field hv.writes) hwrites,
        .cons hv.reads hreads⟩

end

end Tablewright.Json

namespace Tablewright.Value

open Json

/-- The value that a text is the JSON of. -/
def ofJson? (text : String) : Option Value :=
  match (scanner.tokens? text.toList).bind value? with
  | some (v, []) => some v
  | _ => none

/-- A value is read back from its JSON, at any level and with blanks behind it. -/
theorem ofJson?_json (level : Nat) (v : Value) {gap : String}
    (hgap : ∀ c ∈ gap.toList, Token.isBlank c = true) : ofJson? (v.json level ++ gap) = some v := by
  obtain ⟨ts, hwrites, hreads⟩ := exists_spelled level v
  have hend : ∀ rest, rest = [] → NumberEnds (gap.toList ++ rest) := by
    rintro rest rfl c hc
    rw [List.append_nil] at hc
    exact isDigit_of_isBlank (hgap c (List.mem_of_mem_head? hc))
  have hblanks : scanner.Writes (· = []) gap.toList [] := .blanks hgap
  have htokens : scanner.tokens? (v.json level ++ gap).toList = some (ts ++ []) := by
    rw [String.toList_append]
    exact (hwrites.append hblanks hend).tokens? rfl
  rw [ofJson?, htokens, Option.bind_some, hreads []]

end Tablewright.Value
