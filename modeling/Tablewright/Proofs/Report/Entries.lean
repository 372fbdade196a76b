import Tablewright.Proofs.Checks
import Tablewright.Proofs.Code.Written
import Tablewright.Proofs.Finder.Arguments
import Tablewright.Proofs.Names.OneLine
import Tablewright.Report

/-! What a line about a lookup tells its reader. Names may hold any characters, the marks of the line
included, so the name of the lookup and its columns can only be compared with names that the reader
knows. All else is read off the line: the parameters, what is answered, how it is compared, and
whether the note on the current user stands behind the columns. -/

namespace Tablewright.Report

open Text

/-! ## Reading a line -/

structure Parameter where
  name : String
  /-- The type of one value. -/
  type : EntityType
  isSequence : Bool
deriving Repr, DecidableEq

/-- What a line about a lookup says besides its name and its columns. -/
structure Entry where
  parameters : List Parameter
  arity : Arity
  lookup : Lookup
  /-- The note that the rows of the current user are looked up. -/
  isScoped : Bool
deriving Repr, DecidableEq

/-- A name, a blank and a type. The type of a sequence begins with brackets. -/
def parameter? (text : List Char) : Option Parameter :=
  let name := text.takeWhile (· ≠ ' ')
  let type := text.drop (name.length + 1)
  match dropStart? "[]".toList type with
  | some element => (EntityType.ofName? (.ofList element)).map (⟨.ofList name, ·, true⟩)
  | none => (EntityType.ofName? (.ofList type)).map (⟨.ofList name, ·, false⟩)

/-- Parameters with a comma between neighbours. -/
def parameters? (text : List Char) : Option (List Parameter) :=
  if text.isEmpty then some []
  else (splitAt (· == ',') text).mapM fun piece => parameter? (trimStart piece)

/-- The first of the values whose name the text begins with, and what follows the name. -/
def named? (name : α → String) (values : List α) (text : List Char) : Option (α × List Char) :=
  values.findSome? fun a => (dropStart? (name a).toList text).map (a, ·)

/-- The end of a line: the parenthesis, with the note before it or without. -/
def note? (text : List Char) : Option Bool :=
  if text = "; scoped to current user)".toList then some true
  else if text = ")".toList then some false
  else none

/-- Reads a line about the lookup with the given name and columns. -/
def entry? (name : String) (columns : List String) (line : String) : Option Entry := do
  let text ← dropStart? ("- `" ++ name ++ "(").toList line.toList
  let parameters ← parameters? (text.takeWhile (· ≠ ')'))
  let text ← dropStart? ")` (".toList (text.dropWhile (· ≠ ')'))
  let (arity, text) ← named? Arity.name [.single, .collection] text
  let text ← dropStart? ", ".toList text
  let (lookup, text) ← named? Lookup.name [.eq, .among] text
  let text ← dropStart? (" on " ++ join ", " columns).toList text
  let isScoped ← note? text
  return ⟨parameters, arity, lookup, isScoped⟩

def Parameter.of (a : FinderArg) : Parameter := ⟨a.name, a.entityType, a.isSequence⟩

/-- What is to be said about a lookup. -/
def Entry.of (f : Finder) : Entry where
  parameters := f.args.map Parameter.of
  arity := f.arity
  lookup := f.lookup
  isScoped := decide (userIdColumn ∈ f.columns)

/-- The line has the name and the columns of the lookup, and says what is to be said about it. -/
def Shows (f : Finder) (line : String) : Prop := entry? f.name f.columns line = some (.of f)

/-! ## Parameters -/

/-- None of the marks between and around parameters stands in a plain name. -/
theorem notMark_of_isSnake {c : Char} (h : isSnake c = true) :
    c ≠ ' ' ∧ c ≠ ',' ∧ c ≠ ')' ∧ c ≠ '\n' :=
  of_decide_eq_true (of_isSnake (p := fun c => c ≠ ' ' ∧ c ≠ ',' ∧ c ≠ ')' ∧ c ≠ '\n')
    (by decide +kernel) h)

theorem isSnake_typeName (t : EntityType) : Names.IsSnake t.name := by
  cases t <;> decide

theorem dropStart?_brackets_typeName (t : EntityType) :
    dropStart? "[]".toList t.name.toList = none := by
  cases t <;> decide

/-- Up to a character that a text does not hold, and from there on. -/
theorem takeWhile_dropWhile_append {c : Char} {cs : List Char} (h : c ∉ cs) (rest : List Char) :
    (cs ++ c :: rest).takeWhile (· ≠ c) = cs ∧ (cs ++ c :: rest).dropWhile (· ≠ c) = c :: rest := by
  have hcs : ∀ d ∈ cs, decide (d ≠ c) = true :=
    fun d hd => decide_eq_true (ne_of_mem_of_not_mem hd h)
  have hstop : ∀ d ∈ (c :: rest).head?, decide (d ≠ c) = false := by simp
  exact ⟨takeWhile_run hcs hstop, dropWhile_run hcs hstop⟩

/-- The argument is named by its position. -/
def IsPositional (a : FinderArg) : Prop := ∃ n : Nat, a.name = "k" ++ toString n

/-- The text of a parameter behind its name and the blank. -/
def typeText (a : FinderArg) : List Char :=
  (if a.isSequence then "[]" else "").toList ++ a.entityType.name.toList

theorem toList_argText (a : FinderArg) :
    (argText a).toList = a.name.toList ++ ' ' :: typeText a := by
  simp [argText, typeText]

section Argument

variable {a : FinderArg} (h : IsPositional a)

include h

theorem isSnake_argName : Names.IsSnake a.name := by
  obtain ⟨n, hn⟩ := h
  intro c hc
  rw [hn, String.toList_append, Nat.toString_eq_repr, Nat.toList_repr] at hc
  rcases List.mem_append.mp hc with hc | hc
  · obtain rfl := List.mem_singleton.mp hc
    decide
  · have hdigit : c.isDigit = true := Nat.isDigit_of_mem_toDigits (by decide) (by decide) hc
    simp [isSnake, hdigit]

theorem exists_argText_eq_cons : ∃ rest, (argText a).toList = 'k' :: rest := by
  obtain ⟨n, hn⟩ := h
  rw [toList_argText, hn, String.toList_append]
  exact ⟨_, rfl⟩

theorem trimStart_argText : trimStart (argText a).toList = (argText a).toList := by
  obtain ⟨rest, hrest⟩ := exists_argText_eq_cons h
  rw [hrest]
  refine trimStart_eq_self ?_
  rintro c ⟨rfl⟩
  decide

theorem chars_argText : ∀ c ∈ (argText a).toList, c ≠ ',' ∧ c ≠ ')' ∧ c ≠ '\n' := by
  have hbrackets : Code.Chars (fun c => c ≠ ',' ∧ c ≠ ')' ∧ c ≠ '\n')
      (if a.isSequence then "[]" else "") := by
    split <;> decide
  rw [toList_argText, typeText]
  intro c hc
  rcases List.mem_append.mp hc with hc | hc
  · exact (notMark_of_isSnake (isSnake_argName h c hc)).2
  rcases List.mem_cons.mp hc with rfl | hc
  · decide
  rcases List.mem_append.mp hc with hc | hc
  · exact hbrackets c hc
  · exact (notMark_of_isSnake (isSnake_typeName a.entityType c hc)).2

theorem parameter?_argText : parameter? (argText a).toList = some (.of a) := by
  have hblank : ' ' ∉ a.name.toList :=
    fun hmem => (notMark_of_isSnake (isSnake_argName h _ hmem)).1 rfl
  have hname : (argText a).toList.takeWhile (· ≠ ' ') = a.name.toList := by
    rw [toList_argText]
    exact (takeWhile_dropWhile_append hblank _).1
  have htype : (argText a).toList.drop (a.name.toList.length + 1) = typeText a := by
    rw [toList_argText]
    exact List.drop_length_add_append ..
  unfold parameter?
  dsimp only
  rw [hname, htype, typeText, Parameter.of, String.ofList_toList]
  cases a.isSequence with
  | true =>
    rw [if_pos rfl, dropStart?_append]
    simp [EntityType.ofName?_name]
  | false =>
    have hnone := dropStart?_brackets_typeName a.entityType
    simp only [Bool.false_eq_true, if_false, String.toList_empty, List.nil_append, hnone]
    simp [EntityType.ofName?_name]

end Argument

/-- Texts without commas are what stands between the commas. Behind a comma there is a blank. -/
theorem splitAt_join {s : String} {rest : List String}
    (h : ∀ text ∈ s :: rest, ',' ∉ text.toList) :
    splitAt (· == ',') (join ", " (s :: rest)).toList =
      s.toList :: rest.map (' ' :: ·.toList) := by
  have hwhole : ∀ text ∈ s :: rest, splitAt (· == ',') text.toList = [text.toList] :=
    fun text htext => splitAt_of_forall_neg fun c hc =>
      beq_eq_false_iff_ne.mpr (ne_of_mem_of_not_mem hc (h text htext))
  induction rest generalizing s with
  | nil => exact hwhole s List.mem_cons_self
  | cons t rest ih =>
    have hjoin : (join ", " (s :: t :: rest)).toList =
        s.toList ++ ',' :: ' ' :: (join ", " (t :: rest)).toList := by
      simp [join]
    have hcut : splitAt (· == ',') (join ", " (s :: t :: rest)).toList =
        splitAt (· == ',') s.toList ++ splitAt (· == ',') (' ' :: (join ", " (t :: rest)).toList) := by
      rw [hjoin]
      exact splitAt_append_cons rfl _ _
    rw [hcut, hwhole s List.mem_cons_self, splitAt_cons_of_neg rfl,
      ih (fun text htext => h text (List.mem_cons_of_mem s htext))
        fun text htext => hwhole text (List.mem_cons_of_mem s htext)]
    rfl

/-- Behind the first comma, each parameter is read from behind a blank. -/
theorem mapM_parameter? {args : List FinderArg} (h : ∀ a ∈ args, IsPositional a) :
    ((args.map argText).map (' ' :: ·.toList)).mapM (fun piece => parameter? (trimStart piece)) =
      some (args.map .of) := by
  have hblank : ∀ c ∈ [' '], isBlank c = true := List.forall_mem_singleton.mpr rfl
  rw [List.map_map, List.mapM_map]
  refine Checks.mapM_eq_some fun a ha => ?_
  have hpiece : trimStart (' ' :: (argText a).toList) = (argText a).toList :=
    (trimStart_blanks_append hblank).trans (trimStart_argText (h a ha))
  show parameter? (trimStart (' ' :: (argText a).toList)) = _
  rw [hpiece, parameter?_argText (h a ha)]

/-- Arguments are read back from their texts. -/
theorem parameters?_join {args : List FinderArg} (h : ∀ a ∈ args, IsPositional a) :
    parameters? (join ", " (args.map argText)).toList = some (args.map .of) := by
  cases args with
  | nil => rfl
  | cons a rest =>
    obtain ⟨ha, hrest⟩ := List.forall_mem_cons.mp h
    have hcommas : ∀ text ∈ (a :: rest).map argText, ',' ∉ text.toList :=
      List.forall_mem_map.mpr fun b hb hcomma => (chars_argText (h b hb) _ hcomma).1 rfl
    have hsplit : splitAt (· == ',') (join ", " ((a :: rest).map argText)).toList =
        (argText a).toList :: (rest.map argText).map (' ' :: ·.toList) := splitAt_join hcommas
    have hne : (join ", " ((a :: rest).map argText)).toList ≠ [] := by
      intro hnil
      obtain ⟨tail, htail⟩ := exists_argText_eq_cons ha
      rw [hnil, htail] at hsplit
      cases hsplit
    rw [parameters?, if_neg (by simpa using hne), hsplit, List.mapM_cons, trimStart_argText ha,
      parameter?_argText ha, mapM_parameter? hrest]
    rfl

theorem isPositional_args {t : Table} {f : Finder} (hf : f ∈ t.finders) :
    ∀ a ∈ f.args, IsPositional a := by
  intro a ha
  rcases Finder.mem_lookups.mp (Finder.mem_lookups_of_mem_finders hf) with
    ⟨_, rfl⟩ | ⟨i, _, c, p, _, _, rfl | ⟨_, rfl⟩⟩
  · cases ha
  · obtain ⟨n, _, rfl⟩ := List.mem_mapIdx.mp ha
    exact ⟨n, rfl⟩
  · obtain rfl := List.mem_singleton.mp ha
    exact ⟨0, rfl⟩

/-! ## Lines -/

/-- The note on the current user, and the parenthesis that closes a line. -/
def ending (f : Finder) : List Char :=
  (if f.isUserScoped then "; scoped to current user" else "").toList ++ ")".toList

theorem note?_ending (f : Finder) : note? (ending f) = some (decide (userIdColumn ∈ f.columns)) := by
  unfold ending Finder.isUserScoped
  by_cases h : userIdColumn ∈ f.columns
  · simp [h, note?]
  · simp [h, note?]

theorem toList_finderLine (f : Finder) :
    (finderLine f).toList = ("- `" ++ f.name ++ "(").toList ++
      ((join ", " (f.args.map argText)).toList ++ (")` (".toList ++ (f.arity.name.toList ++
        (", ".toList ++ (f.lookup.name.toList ++ ((" on " ++ join ", " f.columns).toList ++
          ending f)))))) := by
  simp [finderLine, notes, ending]

theorem named?_arity (arity : Arity) (rest : List Char) :
    named? Arity.name [.single, .collection] (arity.name.toList ++ rest) = some (arity, rest) := by
  cases arity <;> simp [named?, Arity.name, dropStart?]

theorem named?_lookup (lookup : Lookup) (rest : List Char) :
    named? Lookup.name [.eq, .among] (lookup.name.toList ++ rest) = some (lookup, rest) := by
  cases lookup <;> simp [named?, Lookup.name, dropStart?]

/-- The line of a lookup shows it. -/
theorem shows_finderLine {f : Finder} (h : ∀ a ∈ f.args, IsPositional a) :
    Shows f (finderLine f) := by
  have hparen : ')' ∉ (join ", " (f.args.map argText)).toList := by
    have hchars : Code.Chars (· ≠ ')') (join ", " (f.args.map argText)) :=
      Code.Chars.join (by decide) (List.forall_mem_map.mpr fun a ha c hc =>
        (chars_argText (h a ha) c hc).2.1)
    exact fun hmem => hchars _ hmem rfl
  have hstop (rest : List Char) := takeWhile_dropWhile_append hparen ("` (".toList ++ rest)
  have hclose (rest : List Char) : ")` (".toList ++ rest = ')' :: ("` (".toList ++ rest) := rfl
  unfold Shows entry?
  simp only [toList_finderLine, dropStart?_append, Option.bind_eq_bind, Option.bind_some, hclose,
    (hstop _).1, (hstop _).2, parameters?_join h]
  simp only [← hclose, dropStart?_append, Option.bind_some, named?_arity, named?_lookup,
    note?_ending]
  rfl

/-- The name of a column is not taken for the note. -/
example : entry? "FindByID" ["id; scoped to current user"]
    "- `FindByID(k0 []int32)` (collection, in on id; scoped to current user)" =
      some ⟨[⟨"k0", .int32, true⟩], .collection, .among, false⟩ := by
  decide

end Tablewright.Report
