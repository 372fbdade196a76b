import Tablewright.Code.Layout
import Tablewright.Proofs.Code.Alignment
import Tablewright.Proofs.Text.Blank
import Tablewright.Proofs.Text.Split

/-! What the text of statements and expressions is made of: names as they are given, marks that the
layout puts between them, string literals, and lines that stand further in. What a text holds is
shown once here, and facts about all texts follow by induction on how they are written. -/

namespace Tablewright.Code

open Tablewright.Text

/-! ## Texts that are written as they are given -/

mutual

/-- The names that the written form of a type takes over as they are. -/
def TypeRef.verbatim : TypeRef → List String
  | .named name => [name]
  | .qualified package name => [packageName package, name]
  | .pointer target => target.verbatim
  | .slice element => element.verbatim
  | .map key value => key.verbatim ++ value.verbatim
  | .func params results => TypeRef.verbatimOf params ++ TypeRef.verbatimOf results
  | .any => []

def TypeRef.verbatimOf : List TypeRef → List String
  | [] => []
  | t :: ts => t.verbatim ++ TypeRef.verbatimOf ts

end

def Param.verbatim (param : Param) : List String := param.name :: param.type.verbatim

def Signature.verbatim (s : Signature) : List String :=
  s.name :: (s.params.flatMap Param.verbatim ++ TypeRef.verbatimOf s.results)

mutual

/-- The names in an expression that its written form takes over as they are: all of its texts but
for its strings. -/
def Expr.verbatim : Expr → List String
  | .ident name => [name]
  | .qualified package name => [packageName package, name]
  | .nil | .str _ | .int _ => []
  | .type type => type.verbatim
  | .field base name => base.verbatim ++ [name]
  | .call callee args => callee.verbatim ++ Expr.verbatimOf args
  | .index base position => base.verbatim ++ position.verbatim
  | .unary _ operand => operand.verbatim
  | .binary left _ right => left.verbatim ++ right.verbatim
  | .paren inner => inner.verbatim
  | .composite type fields => type.verbatim ++ Expr.verbatimOfFields fields
  | .slice element elements => element.verbatim ++ Expr.verbatimOf elements
  | .map key value entries => key.verbatim ++ value.verbatim ++ Expr.verbatimOfEntries entries
  | .func params results body =>
    params.flatMap Param.verbatim ++ TypeRef.verbatimOf results ++ Stmt.verbatimOf body

def Expr.verbatimOf : List Expr → List String
  | [] => []
  | e :: es => e.verbatim ++ Expr.verbatimOf es

def Expr.verbatimOfFields : List (String × Expr) → List String
  | [] => []
  | (name, value) :: rest => name :: (value.verbatim ++ Expr.verbatimOfFields rest)

def Expr.verbatimOfEntries : List (Expr × Expr) → List String
  | [] => []
  | (key, value) :: rest => key.verbatim ++ value.verbatim ++ Expr.verbatimOfEntries rest

/-- The names in a statement that its written form takes over as they are. -/
def Stmt.verbatim : Stmt → List String
  | .expr e => e.verbatim
  | .define names value => names ++ value.verbatim
  | .assign target value => target.verbatim ++ value.verbatim
  | .declare name type => name :: type.verbatim
  | .ret values => Expr.verbatimOf values
  | .when init condition body =>
    Stmt.verbatimOfInit init ++ condition.verbatim ++ Stmt.verbatimOf body
  | .range key value source body =>
    key.toList ++ [value] ++ source.verbatim ++ Stmt.verbatimOf body
  | .count counter first bound body =>
    counter :: (first.verbatim ++ bound.verbatim ++ Stmt.verbatimOf body)

def Stmt.verbatimOfInit : Option Stmt → List String
  | none => []
  | some s => s.verbatim

def Stmt.verbatimOf : List Stmt → List String
  | [] => []
  | s :: rest => s.verbatim ++ Stmt.verbatimOf rest

end

/-! ## What is set into a text -/

/-- A part of a text that has rules of its own. -/
inductive Inset
  /-- A string literal. -/
  | text (value : String)
  /-- The lines of a nested block, with the tabs before each of its statements. -/
  | block (level : Nat) (body : List Stmt)

mutual

/-- The insets of an expression in the order in which they are written, if its first line continues
a line at `level`. The entries of keyed literals and the bodies of functions are one tab further
in. -/
def Expr.insets (level : Nat) : Expr → List Inset
  | .ident _ | .qualified _ _ | .nil | .int _ | .type _ => []
  | .str value => [.text value]
  | .field base _ => base.insets level
  | .call callee args => callee.insets level ++ Expr.insetsOf level args
  | .index base position => base.insets level ++ position.insets level
  | .unary _ operand => operand.insets level
  | .binary left _ right => left.insets level ++ right.insets level
  | .paren inner => inner.insets level
  | .composite _ fields => Expr.insetsOfFields (level + 1) fields
  | .slice _ elements => Expr.insetsOf level elements
  | .map _ _ entries => Expr.insetsOfEntries (level + 1) entries
  | .func _ _ body => .block (level + 1) body :: Stmt.insetsOf (level + 1) body

def Expr.insetsOf (level : Nat) : List Expr → List Inset
  | [] => []
  | e :: es => e.insets level ++ Expr.insetsOf level es

def Expr.insetsOfFields (level : Nat) : List (String × Expr) → List Inset
  | [] => []
  | (_, value) :: rest => value.insets level ++ Expr.insetsOfFields level rest

def Expr.insetsOfEntries (level : Nat) : List (Expr × Expr) → List Inset
  | [] => []
  | (key, value) :: rest =>
    key.insets level ++ (value.insets level ++ Expr.insetsOfEntries level rest)

/-- The insets of a statement in the order in which they are written. -/
def Stmt.insets (level : Nat) : Stmt → List Inset
  | .expr e => e.insets level
  | .define _ value => value.insets level
  | .assign target value => target.insets level ++ value.insets level
  | .declare _ _ => []
  | .ret values => Expr.insetsOf level values
  | .when init condition body =>
    Stmt.insetsOfInit level init ++ condition.insets level ++
      .block (level + 1) body :: Stmt.insetsOf (level + 1) body
  | .range _ _ source body =>
    source.insets level ++ .block (level + 1) body :: Stmt.insetsOf (level + 1) body
  | .count _ first bound body =>
    first.insets level ++ bound.insets level ++
      .block (level + 1) body :: Stmt.insetsOf (level + 1) body

def Stmt.insetsOfInit (level : Nat) : Option Stmt → List Inset
  | none => []
  | some s => s.insets level

def Stmt.insetsOf (level : Nat) : List Stmt → List Inset
  | [] => []
  | s :: rest => s.insets level ++ Stmt.insetsOf level rest

end

/-! ## Texts of certain characters -/

/-- All characters of the text are of a kind. -/
def Chars (p : Char → Prop) (s : String) : Prop := ∀ c ∈ s.toList, p c

instance (p : Char → Prop) [DecidablePred p] (s : String) : Decidable (Chars p s) :=
  List.decidableBAll p s.toList

/-- The characters that the layout itself puts on a line, outside of string literals. -/
def isMark (c : Char) : Bool := c.isAlphanum || " !&()*+,-.:;<=>[]_\x7b|\x7d".toList.contains c

/-- The marks are characters of the kind. -/
def HasMarks (p : Char → Prop) : Prop := ∀ c, isMark c = true → p c

/-- The names consist of characters of a kind. -/
def Plain (p : Char → Prop) (names : List String) : Prop := ∀ name ∈ names, Chars p name

instance (p : Char → Prop) [DecidablePred p] (names : List String) : Decidable (Plain p names) :=
  inferInstanceAs (Decidable (∀ name ∈ names, Chars p name))

namespace Chars

variable {p : Char → Prop} {s t : String}

theorem append (hs : Chars p s) (ht : Chars p t) : Chars p (s ++ t) := by
  rw [Chars, String.toList_append, List.forall_mem_append]
  exact ⟨hs, ht⟩

theorem mark (hp : HasMarks p) (h : s.toList.all isMark = true) : Chars p s :=
  fun c hc => hp c (List.all_eq_true.mp h c hc)

theorem digits (hp : HasMarks p) (n : Nat) : Chars p n.repr := by
  intro c hc
  rw [Nat.toList_repr] at hc
  have hdigit : c.isDigit = true := Nat.isDigit_of_mem_toDigits (by decide) (by decide) hc
  exact hp c (by simp [isMark, Char.isAlphanum, hdigit])

theorem int (hp : HasMarks p) (value : Int) : Chars p (toString value) := by
  cases value with
  | ofNat n => exact digits hp n
  | negSucc n => exact (mark hp (s := "-") (by decide)).append (digits hp (n + 1))

theorem join {sep : String} (hsep : Chars p sep) {texts : List String} (h : Plain p texts) :
    Chars p (join sep texts) := by
  induction texts with
  | nil => nofun
  | cons s rest ih =>
    obtain ⟨hs, hrest⟩ := List.forall_mem_cons.mp h
    cases rest with
    | nil => exact hs
    | cons t rest => exact (hs.append hsep).append (ih hrest)

end Chars

theorem chars_tabs {p : Char → Prop} (hp : p '\t') (level : Nat) : Chars p (tabs level) := by
  intro c hc
  rw [tabs, String.toList_ofList] at hc
  exact List.eq_of_mem_replicate hc ▸ hp

/-- A string literal stays on its line, and there is no tab in it. -/
theorem chars_quote (value : String) :
    Chars (fun c => c ≠ '\n' ∧ c ≠ '\t' ∧ c ≠ '\r') (quote value) := by
  have hescape : ∀ c, ∀ d ∈ escapeChar c, d ≠ '\n' ∧ d ≠ '\t' ∧ d ≠ '\r' := by
    intro c
    unfold escapeChar
    split
    · simp
    · simp
    · simp
    · simp
    · simp
    · next _ _ hfeed htab hreturn => exact List.forall_mem_singleton.mpr ⟨hfeed, htab, hreturn⟩
  rw [Chars, quote, String.toList_ofList]
  refine List.forall_mem_append.mpr ⟨List.forall_mem_cons.mpr ⟨by decide, ?_⟩, by simp⟩
  intro d hd
  obtain ⟨c, -, hd⟩ := List.mem_flatMap.mp hd
  exact hescape c d hd

theorem Plain.append_iff {p : Char → Prop} {xs ys : List String} :
    Plain p (xs ++ ys) ↔ Plain p xs ∧ Plain p ys :=
  List.forall_mem_append

theorem Plain.cons_iff {p : Char → Prop} {x : String} {xs : List String} :
    Plain p (x :: xs) ↔ Chars p x ∧ Plain p xs :=
  List.forall_mem_cons

section Types

variable {p : Char → Prop} (hp : HasMarks p)

include hp

mutual

theorem TypeRef.chars_render : ∀ t : TypeRef, Plain p t.verbatim → Chars p t.render
  | .named name, h => h name List.mem_cons_self
  | .qualified package name, h => by
    obtain ⟨hpackage, hname⟩ := Plain.cons_iff.mp h
    exact (hpackage.append (.mark hp (by decide))).append (hname name List.mem_cons_self)
  | .pointer target, h => .append (.mark hp (by decide)) (target.chars_render h)
  | .slice element, h => .append (.mark hp (by decide)) (element.chars_render h)
  | .map key value, h => by
    obtain ⟨hkey, hvalue⟩ := Plain.append_iff.mp h
    exact (((Chars.mark hp (by decide)).append (key.chars_render hkey)).append
      (.mark hp (by decide))).append (value.chars_render hvalue)
  | .func params results, h => by
    obtain ⟨hparams, hresults⟩ := Plain.append_iff.mp h
    exact (((Chars.mark hp (by decide)).append (TypeRef.chars_renderList params hparams)).append
      (.mark hp (by decide))).append (TypeRef.chars_renderResults results hresults)
  | .any, _ => .mark hp (by decide)

theorem TypeRef.chars_renderList :
    ∀ ts : List TypeRef, Plain p (TypeRef.verbatimOf ts) → Chars p (TypeRef.renderList ts)
  | [], _ => nofun
  | [t], h => t.chars_render (Plain.append_iff.mp h).1
  | t :: t' :: ts, h => by
    obtain ⟨ht, hts⟩ := Plain.append_iff.mp h
    exact ((t.chars_render ht).append (.mark hp (by decide))).append
      (TypeRef.chars_renderList (t' :: ts) hts)

theorem TypeRef.chars_renderResults :
    ∀ ts : List TypeRef, Plain p (TypeRef.verbatimOf ts) → Chars p (TypeRef.renderResults ts)
  | [], _ => nofun
  | [t], h => .append (.mark hp (by decide)) (t.chars_render (Plain.append_iff.mp h).1)
  | t :: t' :: ts, h => by
    obtain ⟨ht, hts⟩ := Plain.append_iff.mp h
    exact ((((Chars.mark hp (by decide)).append (t.chars_render ht)).append
      (.mark hp (by decide))).append (TypeRef.chars_renderList (t' :: ts) hts)).append
      (.mark hp (by decide))

end

theorem Param.chars_render (param : Param) (h : Plain p param.verbatim) : Chars p param.render := by
  obtain ⟨hname, htype⟩ := Plain.cons_iff.mp h
  exact (hname.append (.mark hp (by decide))).append (param.type.chars_render hp htype)

theorem Param.chars_renderList (params : List Param) (h : Plain p (params.flatMap Param.verbatim)) :
    Chars p (Param.renderList params) := by
  refine Chars.join (.mark hp (by decide)) (List.forall_mem_map.mpr fun param hparam => ?_)
  exact param.chars_render hp fun name hname => h name (List.mem_flatMap_of_mem hparam hname)

theorem Signature.chars_render (s : Signature) (h : Plain p s.verbatim) : Chars p s.render := by
  obtain ⟨hname, htypes⟩ := Plain.cons_iff.mp h
  obtain ⟨hparams, hresults⟩ := Plain.append_iff.mp htypes
  exact (((hname.append (.mark hp (by decide))).append
    (Param.chars_renderList hp s.params hparams)).append (.mark hp (by decide))).append
      (TypeRef.chars_renderResults hp s.results hresults)

end Types

/-! ## How texts are written -/

inductive Shape
  /-- What continues a line, and may go on over further lines. -/
  | phrase
  /-- Whole lines. -/
  | lines

/-- The text is written at a level with these insets in order. What is neither a string literal nor
the indentation of a line consists of characters of a kind. -/
inductive Written (p : Char → Prop) : Shape → Nat → List Inset → String → Prop
  | plain {level : Nat} {s : String} (h : Chars p s) : Written p .phrase level [] s
  | literal {level : Nat} (value : String) :
    Written p .phrase level [.text value] (quote value)
  | append {level : Nat} {xs ys : List Inset} {s t : String} (h : Written p .phrase level xs s)
    (h' : Written p .phrase level ys t) : Written p .phrase level (xs ++ ys) (s ++ t)
  /-- Lines one tab further in, and the line that follows them. -/
  | entries {level : Nat} {xs : List Inset} {s : String} (h : Written p .lines (level + 1) xs s) :
    Written p .phrase level xs ("\n" ++ s ++ tabs level)
  /-- A block in braces. The closing brace stands on the line that follows. -/
  | block {level : Nat} {xs : List Inset} {body : List Stmt}
    (hbody : Plain p (Stmt.verbatimOf body))
    (h : Written p .lines (level + 1) xs (renderBlock (level + 1) body)) :
    Written p .phrase level (.block (level + 1) body :: xs)
      (openBrace ++ ("\n" ++ renderBlock (level + 1) body ++ tabs level) ++ closeBrace)
  | noLines {level : Nat} : Written p .lines level [] ""
  | line {level : Nat} {xs ys : List Inset} {s t : String} (h : Written p .phrase level xs s)
    (h' : Written p .lines level ys t) :
    Written p .lines level (xs ++ ys) (tabs level ++ s ++ "\n" ++ t)

/-- The keys and the values of entries are written with these insets in order. -/
inductive WrittenEntries (p : Char → Prop) (level : Nat) :
    List Inset → List (String × String) → Prop
  | nil : WrittenEntries p level [] []
  | cons {xs ys zs : List Inset} {key value : String} {rest : List (String × String)}
    (hkey : Written p .phrase level xs key) (hvalue : Written p .phrase level ys value)
    (hrest : WrittenEntries p level zs rest) :
    WrittenEntries p level (xs ++ (ys ++ zs)) ((key, value) :: rest)

section Writes

variable {p : Char → Prop} {level : Nat} {xs ys : List Inset} {s t : String}

namespace Written

theorem after (h : Written p .phrase level xs s) (ht : Chars p t) :
    Written p .phrase level xs (s ++ t) :=
  List.append_nil xs ▸ h.append (.plain ht)

theorem before (hs : Chars p s) (h : Written p .phrase level xs t) :
    Written p .phrase level xs (s ++ t) :=
  (plain hs).append h

end Written

variable (hp : HasMarks p)

include hp

theorem Written.guarded (needed : Nat) (e : Expr) (h : Written p .phrase level xs s) :
    Written p .phrase level xs (guarded needed e s) := by
  unfold Code.guarded
  split
  · split
    · exact (h.before (.mark hp (by decide))).after (.mark hp (by decide))
    · exact h
  · exact h

theorem Written.unaryOperand (e : Expr) (h : Written p .phrase level xs s) :
    Written p .phrase level xs (unaryOperand e s) := by
  unfold Code.unaryOperand
  split
  · exact (h.before (.mark hp (by decide))).after (.mark hp (by decide))
  · exact h

theorem chars_gap (n : Nat) : Chars p (.ofList (gap n)) := by
  intro c hc
  rw [String.toList_ofList, gap] at hc
  exact hp c (List.eq_of_mem_replicate hc ▸ rfl)

theorem WrittenEntries.lines {entries : List (String × String)} {lines : List String}
    (h : WrittenEntries p level xs entries)
    (hlines : List.Forall₂ (fun e line => IsEntryLine e.1.toList e.2.toList line.toList) entries
      lines) :
    Written p .lines level xs (String.join (lines.map fun line => tabs level ++ line ++ "\n")) := by
  induction h generalizing lines with
  | nil =>
    cases hlines
    exact .noLines
  | @cons xs ys zs key value rest hkey hvalue hrest ih =>
    obtain ⟨line, lines, ⟨n, hline⟩, hmore, rfl⟩ := List.forall₂_cons_left_iff.mp hlines
    have htext : line = key ++ (":" ++ (.ofList (gap n) ++ (value ++ ","))) :=
      String.toList_injective (by simpa using hline)
    have hvalue' : Written p .phrase level ys (":" ++ (.ofList (gap n) ++ (value ++ ","))) :=
      ((hvalue.after (.mark hp (by decide))).before (chars_gap hp n)).before (.mark hp (by decide))
    rw [htext, List.map_cons, String.join_cons, ← List.append_assoc]
    exact (hkey.append hvalue').line (ih hmore)

theorem written_keyedBody {entries : List (String × String)}
    (h : WrittenEntries p (level + 1) xs entries) :
    Written p .phrase level xs (keyedBody level entries) := by
  unfold keyedBody
  split
  · next hempty =>
    obtain rfl := List.isEmpty_iff.mp hempty
    cases h
    exact .plain nofun
  · exact .entries (h.lines hp (forall₂_entryLines entries))

/-- A block with what stands before its braces. -/
theorem Written.braces {body : List Stmt} (h : Written p .phrase level xs s)
    (hbody : Plain p (Stmt.verbatimOf body))
    (hlines : Written p .lines (level + 1) ys (renderBlock (level + 1) body)) :
    Written p .phrase level (xs ++ .block (level + 1) body :: ys)
      (s ++ " " ++ (openBrace ++ ("\n" ++ renderBlock (level + 1) body ++ tabs level) ++
        closeBrace)) :=
  (h.after (.mark hp (by decide))).append (.block hbody hlines)

end Writes

/-- The statement is this text on its lines, and also before a condition. -/
structure Stmt.WrittenAs (p : Char → Prop) (level : Nat) (s : Stmt) (text : String) : Prop where
  render : s.render level = tabs level ++ text ++ "\n"
  init : renderInit level (some s) = text ++ "; "
  written : Written p .phrase level (s.insets level) text

/-- A statement of several lines is trimmed of its indentation and its last line feed. -/
theorem ofList_trim_line (level : Nat) (word middle : String)
    (hword : word.toList.head?.any (!isBlank ·) = true) :
    .ofList (trim (tabs level ++ (word ++ middle ++ closeBrace) ++ "\n").toList) =
      word ++ middle ++ closeBrace := by
  have htabs : Chars (isBlank · = true) (tabs level) := chars_tabs (by decide) level
  obtain ⟨first, hfirst, hblank⟩ := (Option.any_eq_true _ _).mp hword
  have hfeed : ∀ c ∈ "\n".toList, isBlank c = true := List.forall_mem_singleton.mpr (by decide)
  have hhead : (word ++ middle ++ closeBrace).toList.head? = some first := by
    simp [hfirst]
  have hlast : (word ++ middle ++ closeBrace).toList.getLast? = some '\x7d' := by
    simp [closeBrace]
  have hself : trim (word ++ middle ++ closeBrace).toList =
      (word ++ middle ++ closeBrace).toList := by
    refine trim_eq_self (fun c hc => ?_) fun c hc => ?_
    · rw [hhead] at hc
      obtain rfl := Option.mem_some.mp hc
      simpa using hblank
    · rw [hlast] at hc
      exact Option.mem_some.mp hc ▸ (by decide)
  rw [String.append_assoc, String.toList_append, trim_blanks_append htabs, String.toList_append,
    trim_append_blanks hfeed, hself, String.ofList_toList]

/-- A statement with a block is a head on one line and the block in braces. -/
theorem Stmt.exists_writtenAs {p : Char → Prop} (hp : HasMarks p) {level : Nat}
    {s : Stmt} {word head : String} {body : List Stmt} {xs : List Inset}
    (hword : word.toList.head?.any (!isBlank ·) = true)
    (hrender : s.render level = tabs level ++ word ++ head ++ " " ++ openBrace ++ "\n" ++
      renderBlock (level + 1) body ++ tabs level ++ closeBrace ++ "\n")
    (hinit : renderInit level (some s) = .ofList (trim (s.render level).toList) ++ "; ")
    (hinsets : s.insets level = xs ++ .block (level + 1) body :: Stmt.insetsOf (level + 1) body)
    (hhead : Written p .phrase level xs (word ++ head)) (hbody : Plain p (Stmt.verbatimOf body))
    (hlines : Written p .lines (level + 1) (Stmt.insetsOf (level + 1) body)
      (renderBlock (level + 1) body)) : ∃ text, s.WrittenAs p level text := by
  let middle := head ++ " " ++ openBrace ++ "\n" ++ renderBlock (level + 1) body ++ tabs level
  have hline : s.render level = tabs level ++ (word ++ middle ++ closeBrace) ++ "\n" := by
    simp only [hrender, middle, String.append_assoc]
  refine ⟨word ++ middle ++ closeBrace, hline, ?_, ?_⟩
  · rw [hinit, hline, ofList_trim_line level word middle hword]
  · have htext := hhead.braces hp hbody hlines
    rw [hinsets]
    simpa only [middle, String.append_assoc] using htext

/-! ### Statements and expressions

By induction on the syntax, for every level: the entries of a keyed literal and the statements of a
body are written one tab further in, and everything else continues a line at the level itself. -/

section Induction

variable {p : Char → Prop}

mutual

theorem Expr.written (hp : HasMarks p) (level : Nat) :
    ∀ e : Expr, Plain p e.verbatim → Written p .phrase level (e.insets level) (e.render level)
  | .ident name, h => .plain (h name List.mem_cons_self)
  | .qualified package name, h => by
    obtain ⟨hpackage, hname⟩ := Plain.cons_iff.mp h
    exact .plain ((hpackage.append (.mark hp (by decide))).append (hname name List.mem_cons_self))
  | .nil, _ => .plain (Chars.mark hp (s := "nil") (by decide))
  | .str value, _ => .literal value
  | .int value, _ => .plain (.int hp value)
  | .type type, h => .plain (type.chars_render hp h)
  | .field base name, h => by
    obtain ⟨hbase, hname⟩ := Plain.append_iff.mp h
    exact ((base.written hp level hbase).after (.mark hp (by decide))).after
      (hname name List.mem_cons_self)
  | .call callee args, h => by
    obtain ⟨hcallee, hargs⟩ := Plain.append_iff.mp h
    exact (((callee.written hp level hcallee).after (.mark hp (by decide))).append
      (Expr.writtenOf hp level args hargs)).after (.mark hp (by decide))
  | .index base position, h => by
    obtain ⟨hbase, hposition⟩ := Plain.append_iff.mp h
    exact (((base.written hp level hbase).after (.mark hp (by decide))).append
      (position.written hp level hposition)).after (.mark hp (by decide))
  | .unary op operand, h =>
    .before (by cases op <;> exact .mark hp (by decide))
      ((operand.written hp level h).unaryOperand hp operand)
  | .binary left op right, h => by
    obtain ⟨hleft, hright⟩ := Plain.append_iff.mp h
    have hop : Chars p op.render := by cases op <;> exact .mark hp (by decide)
    exact (((((left.written hp level hleft).guarded hp _ left).after (.mark hp (by decide))).after
      hop).after (.mark hp (by decide))).append ((right.written hp level hright).guarded hp _ right)
  | .paren inner, h =>
    .after (.before (.mark hp (by decide)) (inner.written hp level h)) (.mark hp (by decide))
  | .composite type fields, h => by
    obtain ⟨htype, hfields⟩ := Plain.append_iff.mp h
    exact ((written_keyedBody hp (Expr.writtenOfFields hp (level + 1) fields hfields)).before
      ((type.chars_render hp htype).append (.mark hp (by decide)))).after (.mark hp (by decide))
  | .slice element elements, h => by
    obtain ⟨helement, helements⟩ := Plain.append_iff.mp h
    exact ((Expr.writtenOf hp level elements helements).before
      (((Chars.mark hp (by decide)).append (element.chars_render hp helement)).append
        (.mark hp (by decide)))).after (.mark hp (by decide))
  | .map key value entries, h => by
    obtain ⟨htypes, hentries⟩ := Plain.append_iff.mp h
    obtain ⟨hkey, hvalue⟩ := Plain.append_iff.mp htypes
    exact ((written_keyedBody hp (Expr.writtenOfEntries hp (level + 1) entries hentries)).before
      (((((Chars.mark hp (by decide)).append (key.chars_render hp hkey)).append
        (.mark hp (by decide))).append (value.chars_render hp hvalue)).append
          (.mark hp (by decide)))).after (.mark hp (by decide))
  | .func params results body, h => by
    obtain ⟨htypes, hbody⟩ := Plain.append_iff.mp h
    obtain ⟨hparams, hresults⟩ := Plain.append_iff.mp htypes
    have hhead : Chars p ("func(" ++ Param.renderList params ++ ")" ++
        TypeRef.renderResults results) :=
      (((Chars.mark hp (by decide)).append (Param.chars_renderList hp params hparams)).append
        (.mark hp (by decide))).append (TypeRef.chars_renderResults hp results hresults)
    have htext := (Written.plain hhead).braces hp hbody
      (Stmt.writtenOf hp (level + 1) body hbody)
    have hrender : Expr.render level (.func params results body) =
        "func(" ++ Param.renderList params ++ ")" ++ TypeRef.renderResults results ++ " " ++
          (openBrace ++ ("\n" ++ renderBlock (level + 1) body ++ tabs level) ++ closeBrace) := by
      simp only [← String.append_assoc]
      rfl
    rw [hrender]
    exact htext

theorem Expr.writtenOf (hp : HasMarks p) (level : Nat) :
    ∀ es : List Expr, Plain p (Expr.verbatimOf es) →
      Written p .phrase level (Expr.insetsOf level es) (renderExprs level es)
  | [], _ => .plain nofun
  | [e], h => by
    rw [Expr.insetsOf, Expr.insetsOf, List.append_nil]
    exact e.written hp level (Plain.append_iff.mp h).1
  | e :: e' :: es, h => by
    obtain ⟨he, hes⟩ := Plain.append_iff.mp h
    exact ((e.written hp level he).after (.mark hp (by decide))).append
      (Expr.writtenOf hp level (e' :: es) hes)

theorem Expr.writtenOfFields (hp : HasMarks p) (level : Nat) :
    ∀ fields : List (String × Expr), Plain p (Expr.verbatimOfFields fields) →
      WrittenEntries p level (Expr.insetsOfFields level fields) (renderFields level fields)
  | [], _ => .nil
  | (name, value) :: rest, h => by
    obtain ⟨hname, hmore⟩ := Plain.cons_iff.mp h
    obtain ⟨hvalue, hrest⟩ := Plain.append_iff.mp hmore
    exact .cons (.plain hname) (value.written hp level hvalue)
      (Expr.writtenOfFields hp level rest hrest)

theorem Expr.writtenOfEntries (hp : HasMarks p) (level : Nat) :
    ∀ entries : List (Expr × Expr), Plain p (Expr.verbatimOfEntries entries) →
      WrittenEntries p level (Expr.insetsOfEntries level entries)
        (renderEntries level entries)
  | [], _ => .nil
  | (key, value) :: rest, h => by
    obtain ⟨hentry, hrest⟩ := Plain.append_iff.mp h
    obtain ⟨hkey, hvalue⟩ := Plain.append_iff.mp hentry
    exact .cons (key.written hp level hkey) (value.written hp level hvalue)
      (Expr.writtenOfEntries hp level rest hrest)

theorem Stmt.written (hp : HasMarks p) (level : Nat) :
    ∀ s : Stmt, Plain p s.verbatim → ∃ text, s.WrittenAs p level text
  | .expr e, h => ⟨e.render level, rfl, rfl, e.written hp level h⟩
  | .define names value, h => by
    obtain ⟨hnames, hvalue⟩ := Plain.append_iff.mp h
    refine ⟨join ", " names ++ " := " ++ value.render level, ?_, rfl, ?_⟩
    · simp only [← String.append_assoc]
      rfl
    · exact (value.written hp level hvalue).before
        ((Chars.join (.mark hp (by decide)) hnames).append (.mark hp (by decide)))
  | .assign target value, h => by
    obtain ⟨htarget, hvalue⟩ := Plain.append_iff.mp h
    refine ⟨target.render level ++ " = " ++ value.render level, ?_, rfl, ?_⟩
    · simp only [← String.append_assoc]
      rfl
    · exact ((target.written hp level htarget).after (.mark hp (by decide))).append
        (value.written hp level hvalue)
  | .declare name type, h => by
    obtain ⟨hname, htype⟩ := Plain.cons_iff.mp h
    refine ⟨"var " ++ name ++ " " ++ type.render, ?_, rfl, ?_⟩
    · simp only [← String.append_assoc]
      rfl
    · have hhead : Chars p ("var " ++ name ++ " ") :=
        ((Chars.mark hp (by decide)).append hname).append (.mark hp (by decide))
      exact .plain (hhead.append (type.chars_render hp htype))
  | .ret [], _ => ⟨"return", by rw [String.append_assoc]; rfl, rfl,
      .plain (.mark hp (by decide))⟩
  | .ret (e :: es), h => by
    refine ⟨"return " ++ renderExprs level (e :: es), ?_, rfl, ?_⟩
    · simp only [← String.append_assoc]
      rfl
    · exact (Expr.writtenOf hp level (e :: es) h).before (.mark hp (by decide))
  | .when init condition body, h => by
    obtain ⟨hhead, hbody⟩ := Plain.append_iff.mp h
    obtain ⟨hinit, hcondition⟩ := Plain.append_iff.mp hhead
    have htext : Written p .phrase level (Stmt.insetsOfInit level init ++ condition.insets level)
        ("if " ++ (renderInit level init ++ condition.render level)) :=
      .before (.mark hp (by decide))
        ((Stmt.writtenInit hp level init hinit).append (condition.written hp level hcondition))
    refine Stmt.exists_writtenAs hp (by decide) ?_ rfl rfl htext hbody
      (Stmt.writtenOf hp (level + 1) body hbody)
    simp only [← String.append_assoc]
    rfl
  | .range key value source body, h => by
    obtain ⟨hhead, hbody⟩ := Plain.append_iff.mp h
    obtain ⟨hnames, hsource⟩ := Plain.append_iff.mp hhead
    obtain ⟨hkey, hvalue⟩ := Plain.append_iff.mp hnames
    have hkey' : Chars p (key.getD "_") := by
      cases key with
      | none => exact .mark hp (by decide)
      | some key => exact hkey key List.mem_cons_self
    have hvalue' : Chars p value := hvalue value List.mem_cons_self
    have htext : Written p .phrase level (source.insets level)
        ("for " ++ (key.getD "_" ++ (", " ++ (value ++ (" := range " ++ source.render level))))) :=
      .before (.mark hp (by decide)) (.before hkey' (.before (.mark hp (by decide))
        (.before hvalue' (.before (.mark hp (by decide)) (source.written hp level hsource)))))
    refine Stmt.exists_writtenAs hp (by decide) ?_ rfl rfl htext hbody
      (Stmt.writtenOf hp (level + 1) body hbody)
    simp only [← String.append_assoc]
    rfl
  | .count counter first bound body, h => by
    obtain ⟨hcounter, hmore⟩ := Plain.cons_iff.mp h
    obtain ⟨hhead, hbody⟩ := Plain.append_iff.mp hmore
    obtain ⟨hfirst, hbound⟩ := Plain.append_iff.mp hhead
    have hstart : Written p .phrase level (first.insets level)
        ("for " ++ (counter ++ (" := " ++ first.render level))) :=
      .before (.mark hp (by decide)) (.before hcounter (.before (.mark hp (by decide))
        (first.written hp level hfirst)))
    have hstop : Written p .phrase level (bound.insets level)
        ("; " ++ counter ++ " < " ++ bound.render level ++ ("; " ++ counter ++ "++")) :=
      (Written.before (((Chars.mark hp (by decide)).append hcounter).append (.mark hp (by decide)))
        (bound.written hp level hbound)).after
          (((Chars.mark hp (by decide)).append hcounter).append (.mark hp (by decide)))
    have htext := hstart.append hstop
    rw [String.append_assoc] at htext
    refine Stmt.exists_writtenAs hp (by decide) ?_ rfl rfl htext hbody
      (Stmt.writtenOf hp (level + 1) body hbody)
    have hmarks : "++ " = "++" ++ " " := by decide
    have hrender : Stmt.render level (.count counter first bound body) = tabs level ++ "for " ++
        counter ++ " := " ++ first.render level ++ "; " ++ counter ++ " < " ++ bound.render level ++
          "; " ++ counter ++ "++ " ++ openBrace ++ "\n" ++ renderBlock (level + 1) body ++
            tabs level ++ closeBrace ++ "\n" := rfl
    rw [hrender, hmarks]
    simp only [← String.append_assoc]

theorem Stmt.writtenInit (hp : HasMarks p) (level : Nat) :
    ∀ init : Option Stmt, Plain p (Stmt.verbatimOfInit init) →
      Written p .phrase level (Stmt.insetsOfInit level init) (renderInit level init)
  | none, _ => .plain nofun
  | some s, h => by
    obtain ⟨text, htext⟩ := s.written hp level h
    rw [htext.init]
    exact htext.written.after (.mark hp (by decide))

theorem Stmt.writtenOf (hp : HasMarks p) (level : Nat) :
    ∀ body : List Stmt, Plain p (Stmt.verbatimOf body) →
      Written p .lines level (Stmt.insetsOf level body) (renderBlock level body)
  | [], _ => .noLines
  | s :: rest, h => by
    obtain ⟨hs, hrest⟩ := Plain.append_iff.mp h
    obtain ⟨text, htext⟩ := s.written hp level hs
    rw [renderBlock, htext.render]
    exact htext.written.line (Stmt.writtenOf hp level rest hrest)

end

end Induction

end Tablewright.Code
