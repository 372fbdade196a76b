import Tablewright.Proofs.Dao.Query
import Tablewright.Proofs.Report.Entries
import Tablewright.Proofs.Schema.Validity
import Tablewright.Proofs.Text.Decimal

/-! A report, read back from its text. Headings divide it into an overview, with a row for each table,
and a part for each table with a line for each lookup. Main statement: where the names stand on one
line, rows and parts are those of the tables in order, and the count in a row, the lines of the part
and the methods of the data access agree. -/

namespace Tablewright

/-- No line feed stands in the name of the table or of a column. -/
structure Table.NamedOnOneLine (t : Table) : Prop where
  name : '\n' ∉ t.name.toList
  columns : ∀ c ∈ t.columns, '\n' ∉ c.name.toList

instance : DecidablePred Table.NamedOnOneLine := fun t =>
  decidable_of_iff ('\n' ∉ t.name.toList ∧ ∀ c ∈ t.columns, '\n' ∉ c.name.toList)
    ⟨fun h => ⟨h.1, h.2⟩, fun h => ⟨h.name, h.columns⟩⟩

namespace Report

open Text

/-! ## Reading a report -/

/-- A heading with the lines up to the next one. -/
structure Part where
  heading : String
  lines : List String
deriving Repr, DecidableEq

/-- What a heading of the second level says. -/
def heading? (line : String) : Option String :=
  (dropStart? "## ".toList line.toList).map String.ofList

/-- The lines before the first heading, and the parts. -/
def outline : List String → List String × List Part
  | [] => ([], [])
  | line :: rest =>
    let (before, parts) := outline rest
    match heading? line with
    | some heading => ([], ⟨heading, before⟩ :: parts)
    | none => (line :: before, parts)

/-- Whether a line is an item of a list. -/
def isItem (line : String) : Bool := (dropStart? "- ".toList line.toList).isSome

def Part.items (p : Part) : List String := p.lines.filter isItem

/-- The number in the last cell of a row. A name may hold bars, but no cell behind it does. -/
def lastNumber? (row : String) : Option Nat :=
  (splitAt (· == '|') row.toList).dropLast.getLast?.bind fun cell => numeral? (trim cell)

/-- What a report begins with. -/
def title : List String := ["# ddl2dao Generation Report", ""]

/-- The lines of the overview before its rows. -/
def tableHead : List String :=
  ["", "| Table | Convention | Columns | Indexes | Finders |",
    "|-------|------------|---------|---------|---------|"]

/-- The row and the part are about the table, and they say the same about its lookups as its data
access has. -/
structure Covers (t : Table) (row : String) (part : Part) : Prop where
  row_name : ("| " ++ t.name ++ " | ").toList <+: row.toList
  heading : part.heading = t.name
  count : lastNumber? row = some part.items.length
  finders : List.Forall₂ Shows t.finders part.items
  methods : ∀ d, Dao.ofTable t = .ok d →
    d.methods.length = part.items.length ∧ List.Forall₂ Shows d.methods part.items
  none : "No finders." ∈ part.lines ↔ part.items = []

/-- The text is a report: a title, an overview that ends with one row for each table, and one part
for each table, in the order of the tables. -/
def ReportsOn (ts : Tables) (text : String) : Prop :=
  ∃ rows parts,
    outline (lines text) = (title, ⟨"Tables", tableHead ++ rows ++ [""]⟩ :: parts) ∧
    rows.length = ts.size ∧ parts.length = ts.size ∧
    ∀ (i : Nat) (t : Table), ts.toList[i]? = some t →
      ∃ row part, rows[i]? = some row ∧ parts[i]? = some part ∧ Covers t row part

/-! ## Headings -/

theorem heading?_heading (s : String) : heading? ("## " ++ s) = some s := by
  rw [heading?, String.toList_append, dropStart?_append, Option.map_some, String.ofList_toList]

theorem heading?_eq_none {line : String} (h : line.toList.head? ≠ some '#') :
    heading? line = none := by
  unfold heading?
  cases hline : line.toList with
  | nil => rfl
  | cons c rest =>
    have hc : '#' ≠ c := fun heq => h (by rw [hline, heq]; rfl)
    have hdrop : dropStart? "## ".toList (c :: rest) = none := if_neg hc
    rw [hdrop, Option.map_none]

theorem outline_heading (s : String) (rest : List String) :
    outline (("## " ++ s) :: rest) = ([], ⟨s, (outline rest).1⟩ :: (outline rest).2) := by
  rw [outline, heading?_heading]

theorem outline_append {before : List String} (h : ∀ line ∈ before, heading? line = none)
    (rest : List String) :
    outline (before ++ rest) = (before ++ (outline rest).1, (outline rest).2) := by
  induction before with
  | nil => rfl
  | cons line before ih =>
    obtain ⟨hline, hbefore⟩ := List.forall_mem_cons.mp h
    rw [List.cons_append, outline, hline, ih hbefore]
    rfl

/-! ## Parts -/

/-- The part about a table. -/
def tablePart (t : Table) : Part := ⟨t.name, "" :: (finderLines t.finders ++ [""])⟩

theorem exists_finderLine_eq (f : Finder) :
    ∃ rest, (finderLine f).toList = '-' :: ' ' :: rest := by
  rw [toList_finderLine, String.append_assoc, String.toList_append]
  exact ⟨_, rfl⟩

theorem isItem_finderLine (f : Finder) : isItem (finderLine f) = true := by
  obtain ⟨rest, hrest⟩ := exists_finderLine_eq f
  rw [isItem, hrest]
  rfl

theorem finderLines_eq {fs : List Finder} (h : fs ≠ []) : finderLines fs = fs.map finderLine := by
  obtain ⟨f, rest, rfl⟩ := List.exists_cons_of_ne_nil h
  rfl

theorem mem_finderLines {fs : List Finder} {line : String} (h : line ∈ finderLines fs) :
    line = "No finders." ∨ ∃ f ∈ fs, finderLine f = line := by
  by_cases hfs : fs = []
  · rw [hfs] at h
    exact .inl (List.mem_singleton.mp h)
  · rw [finderLines_eq hfs] at h
    exact .inr (List.mem_map.mp h)

theorem heading?_finderLines (fs : List Finder) :
    ∀ line ∈ finderLines fs, heading? line = none := by
  intro line hline
  refine heading?_eq_none ?_
  rcases mem_finderLines hline with rfl | ⟨f, _, rfl⟩
  · decide
  · obtain ⟨rest, hrest⟩ := exists_finderLine_eq f
    rw [hrest]
    simp

/-- Each section begins with the empty line that ends the part before it. -/
theorem outline_sections (ts : List Table) :
    outline (ts.flatMap tableSection ++ [""]) = ([""], ts.map tablePart) := by
  have hempty : ∀ line ∈ [""], heading? line = none := by decide
  induction ts with
  | nil => rfl
  | cons t rest ih =>
    have hbody : ∀ line ∈ "" :: finderLines t.finders, heading? line = none :=
      List.forall_mem_cons.mpr ⟨hempty "" List.mem_cons_self, heading?_finderLines t.finders⟩
    have hsection : (t :: rest).flatMap tableSection ++ [""] =
        [""] ++ (("## " ++ t.name) :: (("" :: finderLines t.finders) ++
          (rest.flatMap tableSection ++ [""]))) := by
      simp [tableSection]
    rw [hsection, outline_append hempty, outline_heading, outline_append hbody, ih]
    rfl

theorem items_tablePart (t : Table) : (tablePart t).items = t.finders.map finderLine := by
  have hempty : isItem "" = false := by decide
  unfold Part.items tablePart
  dsimp only
  rw [List.filter_cons_of_neg (by simp [hempty]), List.filter_append,
    List.filter_cons_of_neg (by simp [hempty]), List.filter_nil, List.append_nil]
  by_cases hfs : t.finders = []
  · rw [hfs]
    decide
  · rw [finderLines_eq hfs, List.filter_eq_self]
    exact List.forall_mem_map.mpr fun f _ => isItem_finderLine f

theorem noFinders_mem_tablePart (t : Table) :
    "No finders." ∈ (tablePart t).lines ↔ t.finders = [] := by
  have hpart : "No finders." ∈ (tablePart t).lines ↔ "No finders." ∈ finderLines t.finders := by
    simp [tablePart]
  rw [hpart]
  by_cases hfs : t.finders = []
  · simp [hfs, finderLines]
  · have hmem : "No finders." ∉ t.finders.map finderLine := by
      rw [List.mem_map]
      rintro ⟨f, _, hline⟩
      have hitem := isItem_finderLine f
      rw [hline] at hitem
      cases hitem
    simp [finderLines_eq hfs, hmem, hfs]

/-! ## Rows -/

/-- A row up to the bar before its last cell. -/
def rowStart (t : Table) : String :=
  "| " ++ t.name ++ " | " ++ (conventionText t.convention ++ " | " ++ toString t.columns.length ++
    " | " ++ toString t.indexes.length ++ " ")

/-- The last cell of a row. -/
def countCell (t : Table) : List Char :=
  ' ' :: (Nat.toDigits 10 t.finders.length ++ [' '])

theorem toList_tableRow (t : Table) :
    (tableRow t).toList = (rowStart t).toList ++ '|' :: (countCell t ++ '|' :: []) := by
  simp [tableRow, row, join, rowStart, countCell, Nat.toString_eq_repr]

theorem trim_countCell (t : Table) : trim (countCell t) = Nat.toDigits 10 t.finders.length := by
  have hblank : ∀ c ∈ [' '], isBlank c = true := List.forall_mem_singleton.mpr rfl
  have hdigit : ∀ c ∈ Nat.toDigits 10 t.finders.length, isBlank c = false := fun c hc =>
    isBlank_of_isDigit (Nat.isDigit_of_mem_toDigits (by decide) (by decide) hc)
  calc trim (countCell t)
      = trim (Nat.toDigits 10 t.finders.length ++ [' ']) := trim_blanks_append hblank
    _ = trim (Nat.toDigits 10 t.finders.length) := trim_append_blanks hblank
    _ = Nat.toDigits 10 t.finders.length :=
      trim_eq_self (fun c hc => hdigit c (List.mem_of_mem_head? hc))
        fun c hc => hdigit c (List.mem_of_getLast? hc)

theorem bar_notMem_countCell (t : Table) : '|' ∉ countCell t := by
  have hdigits : '|' ∉ Nat.toDigits 10 t.finders.length := by
    intro hmem
    cases Nat.isDigit_of_mem_toDigits (by decide) (by decide) hmem
  simp [countCell, hdigits]

theorem lastNumber?_tableRow (t : Table) : lastNumber? (tableRow t) = some t.finders.length := by
  have hcell : splitAt (· == '|') (countCell t) = [countCell t] :=
    splitAt_of_forall_neg fun c hc =>
      beq_eq_false_iff_ne.mpr (ne_of_mem_of_not_mem hc (bar_notMem_countCell t))
  have hbars : splitAt (· == '|') (tableRow t).toList =
      splitAt (· == '|') (rowStart t).toList ++ (splitAt (· == '|') (countCell t) ++ [[]]) := by
    rw [toList_tableRow]
    exact (splitAt_append_cons rfl _ _).trans (congrArg _ (splitAt_append_cons rfl _ _))
  rw [lastNumber?, hbars, hcell, ← List.append_assoc, List.dropLast_concat, List.getLast?_concat,
    Option.bind_some, trim_countCell, numeral?_toDigits]

theorem heading?_tableRow (t : Table) : heading? (tableRow t) = none := by
  refine heading?_eq_none ?_
  rw [tableRow, row, String.append_assoc, String.toList_append]
  simp

theorem name_tableRow (t : Table) : ("| " ++ t.name ++ " | ").toList <+: (tableRow t).toList := by
  obtain ⟨rest, hrest⟩ : ∃ rest, (rowStart t).toList = ("| " ++ t.name ++ " | ").toList ++ rest :=
    ⟨_, String.toList_append⟩
  rw [toList_tableRow, hrest, List.append_assoc]
  exact List.prefix_append _ _

/-! ## Lines -/

theorem chars_iff {c : Char} {s : String} : Code.Chars (· ≠ c) s ↔ c ∉ s.toList :=
  ⟨fun h hmem => h c hmem rfl, fun h _ hd => ne_of_mem_of_not_mem hd h⟩

theorem chars_field {column : String} (h : '\n' ∉ column.toList) :
    Code.Chars (· ≠ '\n') (Names.field column) :=
  chars_iff.mpr (Names.lineFeed_notMem_field h)

/-- The names in a lookup are made from those of the columns. -/
theorem chars_finder {t : Table} (h : t.NamedOnOneLine) {f : Finder} (hf : f ∈ t.finders) :
    Code.Chars (· ≠ '\n') f.name ∧ ∀ column ∈ f.columns, Code.Chars (· ≠ '\n') column := by
  have hcolumn : ∀ c ∈ t.columns, Code.Chars (· ≠ '\n') c.name :=
    fun c hc => chars_iff.mpr (h.columns c hc)
  rcases Finder.mem_lookups.mp (Finder.mem_lookups_of_mem_finders hf) with
    ⟨_, rfl⟩ | ⟨i, _, c, p, hp, _, rfl | ⟨_, rfl⟩⟩
  · have hname : Code.Chars (· ≠ '\n') "Find" := by decide
    have howner : Code.Chars (· ≠ '\n') userIdColumn := by decide
    exact ⟨hname, List.forall_mem_singleton.mpr howner⟩
  · have hindex : ∀ c ∈ (i.columns.filterMap t.column?).take (p + 1), c ∈ t.columns :=
      fun c hc => Finder.mem_columns_of_mem_filterMap (List.mem_of_mem_take hc)
    constructor
    · refine Code.Chars.append (by decide) (Code.Chars.join (by decide) ?_)
      refine List.forall_mem_map.mpr fun c hc => ?_
      exact chars_field (h.columns c (hindex c (List.mem_filter.mp hc).1))
    · exact List.forall_mem_map.mpr fun c hc => hcolumn c (hindex c hc)
  · have hc : c ∈ t.columns := Finder.mem_columns_of_mem_filterMap (List.mem_of_getElem? hp)
    constructor
    · exact Code.Chars.append (by decide)
        (chars_iff.mpr (Names.lineFeed_notMem_pluralField (h.columns c hc)))
    · exact List.forall_mem_singleton.mpr (hcolumn c hc)

theorem chars_finderLine {t : Table} (h : t.NamedOnOneLine) {f : Finder} (hf : f ∈ t.finders) :
    Code.Chars (· ≠ '\n') (finderLine f) := by
  obtain ⟨hname, hcolumns⟩ := chars_finder h hf
  have hargs : Code.Chars (· ≠ '\n') (join ", " (f.args.map argText)) :=
    Code.Chars.join (by decide) (List.forall_mem_map.mpr fun a ha c hc =>
      (chars_argText (isPositional_args hf a ha) c hc).2.2)
  have hwords : Code.Chars (· ≠ '\n') f.arity.name ∧ Code.Chars (· ≠ '\n') f.lookup.name := by
    cases f.arity <;> cases f.lookup <;> decide
  have hending : '\n' ∉ ending f := by
    unfold ending
    split <;> decide
  have hmarks : Code.Chars (· ≠ '\n') ")` (" ∧ Code.Chars (· ≠ '\n') ", " := by decide
  have hstart : Code.Chars (· ≠ '\n') ("- `" ++ f.name ++ "(") :=
    ((show Code.Chars _ "- `" by decide).append hname).append (by decide)
  have hjoined : Code.Chars (· ≠ '\n') (" on " ++ join ", " f.columns) :=
    (show Code.Chars _ " on " by decide).append (Code.Chars.join (by decide) hcolumns)
  rw [Code.Chars, toList_finderLine]
  simp only [List.forall_mem_append]
  exact ⟨hstart, hargs, hmarks.1, hwords.1, hmarks.2, hwords.2, hjoined,
    fun c hc => ne_of_mem_of_not_mem hc hending⟩

theorem hasMarks_ne_lineFeed : Code.HasMarks (· ≠ '\n') := by
  rintro c hmark rfl
  revert hmark
  decide

theorem chars_tableRow {t : Table} (h : t.NamedOnOneLine) :
    Code.Chars (· ≠ '\n') (tableRow t) := by
  have hconvention : Code.Chars (· ≠ '\n') (conventionText t.convention) := by
    cases t.convention <;> decide
  have hcount : ∀ n : Nat, Code.Chars (· ≠ '\n') (toString n) :=
    Code.Chars.digits hasMarks_ne_lineFeed
  have hcells : Code.Plain (· ≠ '\n') [t.name, conventionText t.convention,
      toString t.columns.length, toString t.indexes.length, toString t.finders.length] := by
    simp only [Code.Plain, List.forall_mem_cons]
    exact ⟨chars_iff.mpr h.name, hconvention, hcount _, hcount _, hcount _, nofun⟩
  exact ((show Code.Chars _ "| " by decide).append (Code.Chars.join (by decide) hcells)).append
    (by decide)

theorem chars_lines {ts : Tables} (h : ∀ t ∈ ts.toList, t.NamedOnOneLine) :
    ∀ line ∈ overview ts ++ ts.toList.flatMap tableSection, Code.Chars (· ≠ '\n') line := by
  have hempty : Code.Chars (· ≠ '\n') "" := by decide
  simp only [overview, List.forall_mem_append, List.forall_mem_map, List.forall_mem_flatMap]
  refine ⟨⟨by decide, fun t ht => chars_tableRow (h t ht)⟩, fun t ht => ?_⟩
  have hheading : Code.Chars (· ≠ '\n') ("## " ++ t.name) :=
    (show Code.Chars _ "## " by decide).append (chars_iff.mpr (h t ht).name)
  simp only [tableSection, List.forall_mem_append, List.forall_mem_cons]
  refine ⟨⟨hempty, hheading, hempty, nofun⟩, fun line hline => ?_⟩
  rcases mem_finderLines hline with rfl | ⟨f, hf, rfl⟩
  · decide
  · exact chars_finderLine (h t ht) hf

/-! ## The report -/

theorem covers_tablePart (t : Table) : Covers t (tableRow t) (tablePart t) := by
  have hitems : (tablePart t).items.length = t.finders.length := by
    rw [items_tablePart, List.length_map]
  have hshows : List.Forall₂ Shows t.finders (tablePart t).items := by
    rw [items_tablePart, List.forall₂_map_right_iff, List.forall₂_same]
    exact fun f hf => shows_finderLine (isPositional_args hf)
  refine ⟨name_tableRow t, rfl, ?count, hshows, ?methods, ?none⟩
  case count => rw [lastNumber?_tableRow, hitems]
  case methods =>
    intro d hd
    rw [Dao.methods_eq_finders hd, hitems]
    exact ⟨rfl, hshows⟩
  case none =>
    rw [noFinders_mem_tablePart, items_tablePart, List.map_eq_nil_iff]

theorem outline_render {ts : Tables} (h : ∀ t ∈ ts.toList, t.NamedOnOneLine) :
    outline (lines (render ts)) =
      (title, ⟨"Tables", tableHead ++ ts.toList.map tableRow ++ [""]⟩ :: ts.toList.map tablePart) := by
  have hlines : ∀ line ∈ overview ts ++ ts.toList.flatMap tableSection, '\n' ∉ line.toList :=
    fun line hline => chars_iff.mp (chars_lines h line hline)
  have htitle : ∀ line ∈ title, heading? line = none := by decide
  have hrows : ∀ line ∈ tableHead ++ ts.toList.map tableRow, heading? line = none :=
    List.forall_mem_append.mpr ⟨by decide, List.forall_mem_map.mpr fun t _ => heading?_tableRow t⟩
  have hreport : overview ts ++ ts.toList.flatMap tableSection ++ [""] =
      title ++ (("## " ++ "Tables") :: (tableHead ++ ts.toList.map tableRow ++
        (ts.toList.flatMap tableSection ++ [""]))) := by
    simp [overview, row, join, title, tableHead]
  rw [render, lines_unlines hlines, hreport, outline_append htitle, outline_heading,
    outline_append hrows, outline_sections]
  rfl

/-- Items of users, a table whose column looks like the note on the current user, and a table without
an index whose name looks like more of its row. -/
def mixedTables : Tables :=
  ⟨[Declaration.userItemsTable,
    { name := "notes"
      columns := [⟨"id; scoped to current user", "int", .int32, 0, false, false, true, none, true,
        [], []⟩]
      indexes := [⟨"PRIMARY", true, true, ["id; scoped to current user"]⟩]
      isReadOnly := true },
    { name := "logs | 7 |", columns := [], indexes := [], isReadOnly := true }]⟩

end Report

end Tablewright
