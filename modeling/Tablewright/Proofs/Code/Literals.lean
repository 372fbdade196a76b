import Tablewright.Proofs.Code.ImportClause
import Tablewright.Proofs.Code.Parts
import Tablewright.Proofs.Code.Tokens
import Tablewright.Proofs.Code.Written

/-! String literals in files. A reader who scans a file from its first character to its last finds
the strings of the code, as they were before they were written, and no others. -/

namespace Tablewright.Code

open Tablewright.Text

/-! ## The strings of code -/

/-- The string that an expression stands for. -/
def Expr.text? : Expr → Option String
  | .str value => some value
  | _ => none

/-- The strings in the body of a function, in order. -/
def Function.texts (fn : Function) : List String := fn.parts.filterMap Expr.text?

/-- The strings in the functions of a file, in order. -/
def SourceFile.texts (file : SourceFile) : List String := file.functions.flatMap Function.texts

def Inset.text? : Inset → Option String
  | .text value => some value
  | .block _ _ => none

mutual

theorem Expr.filterMap_insets (level : Nat) :
    ∀ e : Expr, (e.insets level).filterMap Inset.text? = e.parts.filterMap Expr.text?
  | .ident _ | .qualified _ _ | .nil | .int _ | .type _ | .str _ => rfl
  | .field base _ => by
    simp [Expr.insets, List.filterMap_cons, Expr.text?, base.filterMap_insets level]
  | .call callee args => by
    simp [Expr.insets, List.filterMap_cons, Expr.text?, callee.filterMap_insets level,
      Expr.filterMap_insetsOf level args]
  | .index base position => by
    have hparts : (Expr.index base position).parts =
      .index base position :: (base.parts ++ position.parts) := rfl
    simp [Expr.insets, List.filterMap_cons, Expr.text?, base.filterMap_insets level,
      position.filterMap_insets level, hparts]
  | .unary _ operand => by
    simp [Expr.insets, List.filterMap_cons, Expr.text?, operand.filterMap_insets level]
  | .binary left _ right => by
    simp [Expr.insets, List.filterMap_cons, Expr.text?, left.filterMap_insets level,
      right.filterMap_insets level]
  | .paren inner => by
    have hparts : (Expr.paren inner).parts = .paren inner :: inner.parts := rfl
    simp [Expr.insets, List.filterMap_cons, Expr.text?, inner.filterMap_insets level, hparts]
  | .composite _ fields => by
    simp [Expr.insets, List.filterMap_cons, Expr.text?,
      Expr.filterMap_insetsOfFields (level + 1) fields]
  | .slice element elements => by
    have hparts : (Expr.slice element elements).parts =
      .slice element elements :: Expr.partsOf elements := rfl
    simp [Expr.insets, List.filterMap_cons, Expr.text?, Expr.filterMap_insetsOf level elements,
      hparts]
  | .map _ _ entries => by
    simp [Expr.insets, List.filterMap_cons, Expr.text?,
      Expr.filterMap_insetsOfEntries (level + 1) entries]
  | .func _ _ body => by
    simp [Expr.insets, List.filterMap_cons, Expr.text?, Inset.text?,
      Stmt.filterMap_insetsOf (level + 1) body]

theorem Expr.filterMap_insetsOf (level : Nat) : ∀ es : List Expr,
    (Expr.insetsOf level es).filterMap Inset.text? = (es.flatMap Expr.parts).filterMap Expr.text?
  | [] => rfl
  | e :: es => by
    simp [Expr.insetsOf, e.filterMap_insets level, Expr.filterMap_insetsOf level es]

theorem Expr.filterMap_insetsOfFields (level : Nat) : ∀ fields : List (String × Expr),
    (Expr.insetsOfFields level fields).filterMap Inset.text? =
      (fields.flatMap (·.2.parts)).filterMap Expr.text?
  | [] => rfl
  | (_, value) :: rest => by
    simp [Expr.insetsOfFields, value.filterMap_insets level,
      Expr.filterMap_insetsOfFields level rest]

theorem Expr.filterMap_insetsOfEntries (level : Nat) : ∀ entries : List (Expr × Expr),
    (Expr.insetsOfEntries level entries).filterMap Inset.text? =
      (entries.flatMap fun e => e.1.parts ++ e.2.parts).filterMap Expr.text?
  | [] => rfl
  | (key, value) :: rest => by
    simp [Expr.insetsOfEntries, key.filterMap_insets level, value.filterMap_insets level,
      Expr.filterMap_insetsOfEntries level rest]

theorem Stmt.filterMap_insets (level : Nat) :
    ∀ s : Stmt, (s.insets level).filterMap Inset.text? = s.parts.filterMap Expr.text?
  | .expr e => e.filterMap_insets level
  | .define _ value => value.filterMap_insets level
  | .assign target value => by
    simp [Stmt.insets, target.filterMap_insets level, value.filterMap_insets level]
  | .declare _ _ => rfl
  | .ret values => by simp [Stmt.insets, Expr.filterMap_insetsOf level values]
  | .when init condition body => by
    simp [Stmt.insets, List.filterMap_cons, Inset.text?, Stmt.filterMap_insetsOfInit level init,
      condition.filterMap_insets level, Stmt.filterMap_insetsOf (level + 1) body]
  | .range key value source body => by
    have hparts : (Stmt.range key value source body).parts =
      source.parts ++ Stmt.partsOf body := rfl
    simp [Stmt.insets, List.filterMap_cons, Inset.text?, hparts, source.filterMap_insets level,
      Stmt.filterMap_insetsOf (level + 1) body]
  | .count counter first bound body => by
    have hparts : (Stmt.count counter first bound body).parts =
      first.parts ++ (bound.parts ++ Stmt.partsOf body) := rfl
    simp [Stmt.insets, List.filterMap_cons, Inset.text?, hparts, first.filterMap_insets level,
      bound.filterMap_insets level, Stmt.filterMap_insetsOf (level + 1) body]

theorem Stmt.filterMap_insetsOfInit (level : Nat) : ∀ init : Option Stmt,
    (Stmt.insetsOfInit level init).filterMap Inset.text? =
      (init.toList.flatMap Stmt.parts).filterMap Expr.text?
  | none => rfl
  | some s => by simp [Stmt.insetsOfInit, s.filterMap_insets level]

theorem Stmt.filterMap_insetsOf (level : Nat) : ∀ body : List Stmt,
    (Stmt.insetsOf level body).filterMap Inset.text? =
      (body.flatMap Stmt.parts).filterMap Expr.text?
  | [] => rfl
  | s :: rest => by
    simp [Stmt.insetsOf, s.filterMap_insets level, Stmt.filterMap_insetsOf level rest]

end

theorem Function.filterMap_insetsOf_body (fn : Function) (level : Nat) :
    (Stmt.insetsOf level fn.body).filterMap Inset.text? = fn.texts :=
  Stmt.filterMap_insetsOf level fn.body

/-! ## Scanning a text for literals -/

/-- What follows a raw literal, read from behind its first quote. -/
def afterRaw? : List Char → Option (List Char)
  | [] => none
  | c :: rest => if c = '\x60' then some rest else afterRaw? rest

/-- What the string literals of a text stand for, in order. Raw literals are passed over. Where a
comment or a character literal might begin, the text is not read. -/
def literals? (cs : List Char) : Option (List String) :=
  match cs with
  | [] => some []
  | c :: rest =>
    if c = '"' then
      match Token.literal? rest with
      | some (value, after) =>
        -- the reader of a literal gives back none of what it has read
        if after.length ≤ rest.length then (literals? after).map (.ofList value :: ·) else none
      | none => none
    else if c = '\x60' then
      match afterRaw? rest with
      | some after => if after.length ≤ rest.length then literals? after else none
      | none => none
    else if c = '\x27' ∨ c = '/' then none
    else literals? rest
termination_by cs.length

/-- The character begins no literal and no comment. -/
def isPlainCode (c : Char) : Prop := c ≠ '"' ∧ c ≠ '\x60' ∧ c ≠ '\x27' ∧ c ≠ '/'

instance : DecidablePred isPlainCode := fun _ => inferInstanceAs (Decidable (_ ∧ _))

theorem hasMarks_isPlainCode : HasMarks isPlainCode := by
  intro c hc
  refine ⟨?_, ?_, ?_, ?_⟩ <;> rintro rfl <;> exact absurd hc (by decide)

theorem afterRaw?_append {cs : List Char} (h : ∀ c ∈ cs, c ≠ '\x60') (rest : List Char) :
    afterRaw? (cs ++ '\x60' :: rest) = some rest := by
  induction cs with
  | nil => exact if_pos rfl
  | cons c cs ih =>
    obtain ⟨hc, hcs⟩ := List.forall_mem_cons.mp h
    exact (if_neg hc).trans (ih hcs)

theorem toList_quote (value : String) :
    (quote value).toList = '"' :: (value.toList.flatMap escapeChar ++ ['"']) := by
  rw [quote, String.toList_ofList, List.cons_append]

/-- A string literal is closed by its last character, and by no character before. -/
theorem literal?_quote (value : String) (rest : List Char) :
    ∃ body, (quote value).toList = '"' :: body ∧
      Token.literal? (body ++ rest) = some (value.toList, rest) := by
  refine ⟨_, toList_quote value, ?_⟩
  rw [List.append_assoc, List.singleton_append, literal?_escape]

theorem literals?_quote (value : String) (rest : List Char) :
    literals? ((quote value).toList ++ rest) = (literals? rest).map (value :: ·) := by
  obtain ⟨body, hbody, hread⟩ := literal?_quote value rest
  have hlength : rest.length ≤ (body ++ rest).length := by
    rw [List.length_append]
    exact Nat.le_add_left _ _
  rw [hbody, List.cons_append, literals?, if_pos rfl, hread]
  refine (if_pos hlength).trans ?_
  rw [String.ofList_toList]

theorem literals?_raw {cs : List Char} (h : ∀ c ∈ cs, c ≠ '\x60') (rest : List Char) :
    literals? ('\x60' :: (cs ++ '\x60' :: rest)) = literals? rest := by
  rw [literals?, if_neg (by decide), if_pos rfl, afterRaw?_append h]
  refine if_pos ?_
  simp
  omega

theorem literals?_plain {cs : List Char} (h : ∀ c ∈ cs, isPlainCode c) (rest : List Char) :
    literals? (cs ++ rest) = literals? rest := by
  induction cs with
  | nil => rfl
  | cons c cs ih =>
    obtain ⟨⟨hquote, hraw, hchar, hslash⟩, hcs⟩ := List.forall_mem_cons.mp h
    rw [List.cons_append, literals?, if_neg hquote, if_neg hraw,
      if_neg (not_or.mpr ⟨hchar, hslash⟩), ih hcs]

/-! ## Texts with literals in them -/

/-- The text is literals of these strings in order, and text of a kind around them. -/
inductive Woven (p : Char → Prop) : List String → String → Prop
  | plain {s : String} (h : Chars p s) : Woven p [] s
  | raw {s : String} (h : Chars (· ≠ '\x60') s) : Woven p [] ("`" ++ s ++ "`")
  | literal (value : String) : Woven p [value] (quote value)
  | append {xs ys : List String} {s t : String} (h : Woven p xs s) (h' : Woven p ys t) :
    Woven p (xs ++ ys) (s ++ t)

namespace Woven

variable {p : Char → Prop} {xs : List String} {s t : String}

theorem after (h : Woven p xs s) (ht : Woven p [] t) : Woven p xs (s ++ t) :=
  List.append_nil xs ▸ h.append ht

theorem before (hs : Woven p [] s) (h : Woven p xs t) : Woven p xs (s ++ t) := hs.append h

theorem mark (hp : HasMarks p) (h : s.toList.all isMark = true) : Woven p [] s :=
  .plain (.mark hp h)

theorem lineFeed (hp : p '\n') : Woven p [] "\n" := .plain (List.forall_mem_singleton.mpr hp)

theorem tab (hp : p '\t') : Woven p [] "\t" := .plain (List.forall_mem_singleton.mpr hp)

theorem tabs (hp : p '\t') (level : Nat) : Woven p [] (tabs level) := .plain (chars_tabs hp level)

/-- A scan finds the literals and nothing else. -/
theorem literals?_eq (h : Woven isPlainCode xs s) (rest : List Char) :
    literals? (s.toList ++ rest) = (literals? rest).map (xs ++ ·) := by
  induction h generalizing rest with
  | plain h => simp [literals?_plain h]
  | @raw s h =>
    have htext : ("`" ++ s ++ "`").toList ++ rest = '\x60' :: (s.toList ++ '\x60' :: rest) := by
      simp
    rw [htext, literals?_raw h]
    simp
  | literal value => exact literals?_quote value rest
  | append _ _ ih ih' =>
    rw [String.toList_append, List.append_assoc, ih, ih', Option.map_map]
    simp [Function.comp_def]

/-- Lines with literals in them. -/
theorem unlines {α : Type} {line : α → String} {texts : α → List String} (hp : p '\n') {l : List α}
    (h : ∀ a ∈ l, Woven p (texts a) (line a)) :
    Woven p (l.flatMap texts) (unlines (l.map line)) := by
  induction l with
  | nil => exact .plain nofun
  | cons a l ih =>
    obtain ⟨ha, hl⟩ := List.forall_mem_cons.mp h
    rw [List.flatMap_cons, List.map_cons, Text.unlines, List.map_cons, String.join_cons]
    exact (ha.after (lineFeed hp)).append (ih hl)

theorem unlines_plain {α : Type} {line : α → String} (hp : p '\n') {l : List α}
    (h : ∀ a ∈ l, Woven p [] (line a)) : Woven p [] (Text.unlines (l.map line)) := by
  have hlines := unlines hp h
  rwa [List.flatMap_eq_nil_iff.mpr fun _ _ => rfl] at hlines

end Woven

theorem Written.woven {p : Char → Prop} {shape : Shape} {level : Nat} {xs : List Inset} {s : String}
    (hp : HasMarks p) (hfeed : p '\n') (htab : p '\t') (h : Written p shape level xs s) :
    Woven p (xs.filterMap Inset.text?) s := by
  induction h with
  | plain h => exact .plain h
  | literal value => exact .literal value
  | append _ _ ih ih' =>
    rw [List.filterMap_append]
    exact ih.append ih'
  | entries _ ih => exact (Woven.before (.lineFeed hfeed) ih).after (.tabs htab _)
  | @block level xs body _ _ ih =>
    have hlines := (Woven.before (.lineFeed hfeed) ih).after (.tabs htab level)
    exact (Woven.before (.mark hp (by decide)) hlines).after (.mark hp (by decide))
  | noLines => exact .plain nofun
  | line _ _ ih ih' =>
    rw [List.filterMap_append]
    exact ((Woven.before (.tabs htab _) ih).after (.lineFeed hfeed)).append ih'

/-! ## Declarations and files -/

/-- The names in a declaration that its written form takes over as they are. -/
def Item.verbatim : Item → List String
  | .struct name fields => name :: fields.flatMap fun f => f.name.toList ++ f.type.verbatim
  | .typeName name type => name :: type.verbatim
  | .interface name methods => name :: methods.flatMap Signature.verbatim
  | .func fn =>
    fn.receiver.toList.flatMap Param.verbatim ++ fn.signature.verbatim ++ Stmt.verbatimOf fn.body

/-- The tags of the fields that an item declares. -/
def Item.tags : Item → List (List (String × String))
  | .struct _ fields => fields.map Field.tags
  | _ => []

/-- The names in a file that its written form takes over as they are, but for its imports. -/
def SourceFile.verbatim (file : SourceFile) : List String :=
  file.package :: file.items.flatMap Item.verbatim

/-- The path needs no escapes. -/
def IsPlainPath (path : String) : Prop := Chars (fun c => escapeChar c = [c]) path

instance : DecidablePred IsPlainPath := fun path =>
  inferInstanceAs (Decidable (Chars (fun c => escapeChar c = [c]) path))

/-- No name, tag or path in the file has a quote in it or something else that a scan for literals
would stop at. -/
structure SourceFile.PlainlyNamed (file : SourceFile) : Prop where
  names : Plain isPlainCode file.verbatim
  tags : ∀ tags ∈ file.items.flatMap Item.tags, ∀ tag ∈ tags,
    Chars (· ≠ '\x60') tag.1 ∧ Chars (· ≠ '\x60') tag.2
  imports : ∀ path ∈ file.imports, IsPlainPath path

section Files

variable {p : Char → Prop} (hp : HasMarks p) (hfeed : p '\n') (htab : p '\t')

include hp

theorem Woven.fieldLine {field : Field} {line : String}
    (hname : Plain p (field.name.toList ++ field.type.verbatim))
    (htags : Woven p [] (tagText field.tags))
    (h : IsFieldLine field field.type.render.toList line.toList) : Woven p [] line := by
  obtain ⟨hname, htype⟩ := Plain.append_iff.mp hname
  have htype' : Woven p [] field.type.render := .plain (field.type.chars_render hp htype)
  have hgap : ∀ n, Woven p [] (.ofList (gap n)) := fun n => .plain (chars_gap hp n)
  generalize hchars : line.toList = cs at h
  cases h with
  | embedded hnone => rwa [String.toList_inj.mp hchars]
  | untagged name hsome n _ =>
    have hline : line = name ++ (.ofList (gap n) ++ field.type.render) :=
      String.toList_injective (by simpa using hchars)
    rw [hline]
    exact .before (.plain (hname name (by simp [hsome]))) ((hgap n).append htype')
  | tagged name hsome n m =>
    have hline : line = name ++ (.ofList (gap n) ++
        (field.type.render ++ (.ofList (gap m) ++ tagText field.tags))) :=
      String.toList_injective (by simpa using hchars)
    rw [hline]
    exact .before (.plain (hname name (by simp [hsome])))
      ((hgap n).append (htype'.append ((hgap m).append htags)))

theorem Woven.fieldLines {fields : List Field}
    (hnames : ∀ f ∈ fields, Plain p (f.name.toList ++ f.type.verbatim))
    (htags : ∀ f ∈ fields, Woven p [] (tagText f.tags)) :
    ∀ line ∈ fieldLines (fields.map fun f => (f, f.type.render)), Woven p [] line := by
  have hlines := List.forall₂_map_left_iff.mp
    (forall₂_fieldLines (fields.map fun f => (f, f.type.render)))
  generalize Code.fieldLines _ = lines at hlines ⊢
  induction hlines with
  | nil => nofun
  | cons hline _ ih =>
    obtain ⟨hname, hnames⟩ := List.forall_mem_cons.mp hnames
    obtain ⟨htag, htags⟩ := List.forall_mem_cons.mp htags
    exact List.forall_mem_cons.mpr ⟨.fieldLine hp hname htag hline, ih hnames htags⟩

include hfeed htab

theorem Woven.struct (name : String) (fields : List Field)
    (hnames : Plain p (Item.struct name fields).verbatim)
    (htags : ∀ f ∈ fields, Woven p [] (tagText f.tags)) :
    Woven p [] (Item.struct name fields).render := by
  obtain ⟨hname, hfields⟩ := Plain.cons_iff.mp hnames
  have hhead : Woven p [] ("type " ++ name) := (mark hp (by decide)).append (.plain hname)
  cases fields with
  | nil =>
    exact (((hhead.append (mark hp (by decide))).append (mark hp (by decide))).append
      (mark hp (by decide))).append (lineFeed hfeed)
  | cons f fs =>
    have hbody : Woven p [] (Text.unlines
        ((Code.fieldLines ((f :: fs).map fun f => (f, f.type.render))).map ("\t" ++ ·))) :=
      unlines_plain hfeed fun line hline => (tab htab).append (fieldLines hp
        (fun f hf name hname => hfields name (List.mem_flatMap_of_mem hf hname)) htags line hline)
    exact (((((hhead.append (mark hp (by decide))).append (mark hp (by decide))).append
      (lineFeed hfeed)).append hbody).append (mark hp (by decide))).append (lineFeed hfeed)

theorem Woven.interface (name : String) (methods : List Signature)
    (hnames : Plain p (Item.interface name methods).verbatim) :
    Woven p [] (Item.interface name methods).render := by
  obtain ⟨hname, hmethods⟩ := Plain.cons_iff.mp hnames
  have hbody : Woven p [] (Text.unlines (methods.map fun m => "\t" ++ m.render)) :=
    unlines_plain hfeed fun m hm => (tab htab).append (.plain (m.chars_render hp
      fun name hname => hmethods name (List.mem_flatMap_of_mem hm hname)))
  exact (((((((mark hp (by decide)).append (.plain hname)).append (mark hp (by decide))).append
    (mark hp (by decide))).append (lineFeed hfeed)).append hbody).append
      (mark hp (by decide))).append (lineFeed hfeed)

/-- The strings in the text of a function are those of its body. -/
theorem Woven.function (fn : Function) (hnames : Plain p (Item.func fn).verbatim) :
    Woven p fn.texts (Item.func fn).render := by
  obtain ⟨receiver, signature, body⟩ := fn
  obtain ⟨hhead, hbody⟩ := Plain.append_iff.mp hnames
  obtain ⟨hreceiver, hsignature⟩ := Plain.append_iff.mp hhead
  have hblock : Woven p (Function.texts ⟨receiver, signature, body⟩) (renderBlock 1 body) :=
    Function.filterMap_insetsOf_body ⟨receiver, signature, body⟩ 1 ▸
      (Stmt.writtenOf hp 1 body hbody).woven hp hfeed htab
  -- what follows the receiver is the same for functions and methods
  have hrest : ∀ start, Woven p [] start → Woven p (Function.texts ⟨receiver, signature, body⟩)
      (start ++ signature.render ++ " " ++ openBrace ++ "\n" ++ renderBlock 1 body ++ closeBrace ++
        "\n") := fun start hstart =>
    ((((((hstart.append (.plain (signature.chars_render hp hsignature))).append
      (mark hp (by decide))).append (mark hp (by decide))).append (lineFeed hfeed)).append
        hblock).after (mark hp (by decide))).after (lineFeed hfeed)
  cases receiver with
  | none => exact hrest ("func " ++ "") (.mark hp (by decide))
  | some r =>
    have hr : Plain p r.verbatim := fun name hname => hreceiver name (by simpa using hname)
    have hreceiver' : Woven p [] ("(" ++ r.render ++ ") ") :=
      ((mark hp (by decide)).append (.plain (r.chars_render hp hr))).append (mark hp (by decide))
    exact hrest ("func " ++ ("(" ++ r.render ++ ") ")) ((mark hp (by decide)).append hreceiver')

theorem Item.woven (item : Item) (hnames : Plain p item.verbatim)
    (htags : ∀ tags ∈ item.tags, Woven p [] (tagText tags)) :
    Woven p (item.function?.toList.flatMap Function.texts) item.render := by
  cases item with
  | struct name fields =>
    exact .struct hp hfeed htab name fields hnames fun f hf => htags _ (List.mem_map_of_mem hf)
  | typeName name type =>
    obtain ⟨hname, htype⟩ := Plain.cons_iff.mp hnames
    have hhead : Woven p [] ("type " ++ name ++ " ") :=
      ((Woven.mark hp (by decide)).append (.plain hname)).append (.mark hp (by decide))
    exact (hhead.append (.plain (type.chars_render hp htype))).append (.lineFeed hfeed)
  | interface name methods => exact .interface hp hfeed htab name methods hnames
  | func fn =>
    have htexts : (Item.func fn).function?.toList.flatMap Function.texts = fn.texts :=
      List.append_nil fn.texts
    rw [htexts]
    exact .function hp hfeed htab fn hnames

theorem Woven.items (items : List Item) (hnames : Plain p (items.flatMap Item.verbatim))
    (htags : ∀ tags ∈ items.flatMap Item.tags, Woven p [] (tagText tags)) :
    Woven p ((items.filterMap Item.function?).flatMap Function.texts)
      (String.join (items.map fun item => "\n" ++ item.render)) := by
  induction items with
  | nil => exact .plain nofun
  | cons item items ih =>
    obtain ⟨hname, hnames⟩ := Plain.append_iff.mp hnames
    obtain ⟨htag, htags⟩ := List.forall_mem_append.mp htags
    have hfunctions : (item :: items).filterMap Item.function? =
        item.function?.toList ++ items.filterMap Item.function? := by
      cases item <;> rfl
    have hitem : Woven p (item.function?.toList.flatMap Function.texts) ("\n" ++ item.render) :=
      .before (.lineFeed hfeed) (item.woven hp hfeed htab hname htag)
    rw [hfunctions, List.flatMap_append, List.map_cons, String.join_cons]
    exact hitem.append (ih hnames htags)

theorem SourceFile.woven {file : SourceFile} {paths : List String}
    (hnames : Plain p file.verbatim)
    (htags : ∀ tags ∈ file.items.flatMap Item.tags, Woven p [] (tagText tags))
    (himports : Woven p paths (unlines (importLines file.imports))) :
    Woven p (paths ++ file.texts) file.render := by
  obtain ⟨hpackage, hitems⟩ := Plain.cons_iff.mp hnames
  have hhead : Woven p [] ("package " ++ file.package ++ "\n") :=
    ((Woven.mark hp (by decide)).append (.plain hpackage)).append (.lineFeed hfeed)
  exact (hhead.before himports).append (.items hp hfeed htab file.items hitems htags)

end Files

/-! ### Import clauses -/

/-- What needs no escapes is written between quotes as it is. -/
theorem IsPlainPath.quote_eq {path : String} (h : IsPlainPath path) :
    quote path = "\"" ++ path ++ "\"" := by
  have hchars : path.toList.flatMap escapeChar = path.toList :=
    (List.flatMap_congr h).trans (List.flatMap_singleton' _)
  rw [quote, hchars]
  exact String.toList_injective (by simp)

/-- Imported paths are literals. -/
theorem Woven.imports {p : Char → Prop} {line : String → String} {start : String}
    (hstart : Woven p [] start) (hfeed : p '\n') {paths : List String}
    (hline : ∀ path, line path = start ++ ("\"" ++ path ++ "\""))
    (h : ∀ path ∈ paths, IsPlainPath path) : Woven p paths (Text.unlines (paths.map line)) := by
  have hlines : Woven p (paths.flatMap ([·])) (Text.unlines (paths.map line)) := by
    refine unlines hfeed fun path hpath => ?_
    rw [hline, ← (h path hpath).quote_eq]
    exact hstart.before (.literal path)
  rwa [List.flatMap_singleton'] at hlines

/-- The lines of an import clause hold literals of the paths, in the order of the groups. -/
theorem exists_woven_importLines {p : Char → Prop} (hp : HasMarks p) (hfeed : p '\n')
    (htab : p '\t') {imports : List String} (h : ∀ path ∈ imports, IsPlainPath path) :
    ∃ paths, paths.Perm imports ∧ Woven p paths (unlines (importLines imports)) := by
  unfold importLines
  split
  · exact ⟨[], .refl [], .plain nofun⟩
  · next path =>
    have hline : ∀ path, "import \"" ++ path ++ "\"" = "import " ++ ("\"" ++ path ++ "\"") := by
      intro path
      rw [← String.append_assoc, ← String.append_assoc]
      rfl
    have hpath := Woven.imports (Woven.mark hp (by decide)) hfeed hline h
    exact ⟨[path], .refl _, (Woven.lineFeed hfeed).before hpath⟩
  · have hline : ∀ path, importLine path = "\t" ++ ("\"" ++ path ++ "\"") := by
      intro path
      rw [← String.append_assoc, ← String.append_assoc]
      rfl
    have hperm := sortedGroups_perm imports
    have hgroup : ∀ paths : List String, (∀ path ∈ paths, path ∈ imports) →
        Woven p paths (unlines (paths.map importLine)) := fun paths hpaths =>
      .imports (.tab htab) hfeed hline fun path hpath => h path (hpaths path hpath)
    have hgap : Woven p [] (unlines (if sortPaths (imports.filter isStandardPath) ≠ [] ∧
        sortPaths (imports.filter (!isStandardPath ·)) ≠ [] then [""] else [])) := by
      split
      · exact .lineFeed hfeed
      · exact .plain nofun
    have hopen : Woven p [] (unlines ["", "import ("]) :=
      (Woven.lineFeed hfeed).append
        ((Woven.mark hp (s := "import (") (by decide)).append (.lineFeed hfeed))
    have hclose : Woven p [] (unlines [")"]) :=
      (Woven.mark hp (s := ")") (by decide)).append (.lineFeed hfeed)
    refine ⟨_, hperm, ?_⟩
    rw [groupedImports_eq]
    simp only [unlines_append]
    refine (hopen.before (.append (.after (hgroup _ fun path hpath => ?_) hgap)
      (hgroup _ fun path hpath => ?_))).after hclose
    · exact hperm.mem_iff.mp (List.mem_append_left _ hpath)
    · exact hperm.mem_iff.mp (List.mem_append_right _ hpath)

/-! ## Strings are kept -/

theorem quote_injective : Function.Injective quote := by
  intro s t h
  obtain ⟨body, hs, hreads⟩ := literal?_quote s []
  obtain ⟨body', ht, hreads'⟩ := literal?_quote t []
  obtain rfl : body = body' := (List.cons.inj (hs.symm.trans (h ▸ ht))).2
  exact String.toList_inj.mp (Prod.mk.inj (Option.some.inj (hreads.symm.trans hreads'))).1

namespace SourceFile

theorem woven_texts (file : SourceFile) : Woven (fun _ => True) file.texts file.render :=
  woven (fun _ _ => trivial) trivial trivial (fun _ _ _ _ => trivial)
    (fun _ _ => .plain fun _ _ => trivial) (.plain fun _ _ => trivial)

/-- The tags between their quotes are passed over. -/
theorem woven_tagText {p : Char → Prop} {tags : List (String × String)}
    (h : ∀ tag ∈ tags, Chars (· ≠ '\x60') tag.1 ∧ Chars (· ≠ '\x60') tag.2) :
    Woven p [] (tagText tags) := by
  refine .raw (Chars.join (by decide) (List.forall_mem_map.mpr fun tag htag => ?_))
  obtain ⟨hkey, hvalue⟩ := h tag htag
  exact ((hkey.append (by decide)).append hvalue).append (by decide)

theorem PlainlyNamed.literals?_render {file : SourceFile} (h : file.PlainlyNamed) :
    ∃ paths, paths.Perm file.imports ∧
      literals? file.render.toList = some (paths ++ file.texts) := by
  obtain ⟨paths, hperm, hpaths⟩ :=
    exists_woven_importLines hasMarks_isPlainCode (by decide) (by decide) h.imports
  have hfile := woven hasMarks_isPlainCode (by decide) (by decide) h.names
    (fun tags htags => woven_tagText (h.tags tags htags)) hpaths
  refine ⟨paths, hperm, ?_⟩
  have hscan := hfile.literals?_eq []
  rw [List.append_nil] at hscan
  rw [hscan, literals?]
  simp

/-- Every string stands in the text of a file as one literal, on one line, that a reader takes for
that string and no other, and what follows the literal is read from behind it. So a scan of the text
finds the imported paths and then the strings of the code, in order. -/
theorem strings_keptInText :
    (∀ (value : String) (rest : List Char), ∃ body, (quote value).toList = '"' :: body ∧
        Token.literal? (body ++ rest) = some (value.toList, rest)) ∧
      (∀ value : String, '\n' ∉ (quote value).toList ∧ '\r' ∉ (quote value).toList) ∧
      Function.Injective quote ∧
      (∀ file : SourceFile, Woven (fun _ => True) file.texts file.render) ∧
      ∀ file : SourceFile, file.PlainlyNamed → ∃ paths, paths.Perm file.imports ∧
        literals? file.render.toList = some (paths ++ file.texts) := by
  refine ⟨literal?_quote, fun value => ⟨fun h => ?_, fun h => ?_⟩, quote_injective, woven_texts,
    fun file h => h.literals?_render⟩
  · exact (chars_quote value _ h).1 rfl
  · exact (chars_quote value _ h).2.2 rfl

/-- A file with a tag and an import, and a string that ends with a backslash. -/
theorem strings_keptInText_of_tagged :
    let file : SourceFile := ⟨"p", ["errors"], [
      .struct "T" [⟨some "Name", .named "string", [("db", "name")]⟩],
      .free ⟨"F", [], [.error]⟩
        [.ret [.call (.qualified "errors" "New") [.str "no \"\n\" in C:\\"]]]]⟩
    file.PlainlyNamed ∧ ∃ paths, paths.Perm ["errors"] ∧
      literals? file.render.toList = some (paths ++ ["no \"\n\" in C:\\"]) := by
  intro file
  have h : file.PlainlyNamed := ⟨by decide, by decide, by decide⟩
  exact ⟨h, strings_keptInText.2.2.2.2 file h⟩

end SourceFile

end Tablewright.Code
