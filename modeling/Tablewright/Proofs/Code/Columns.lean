import Mathlib.Data.List.Basic
import Tablewright.Code.Layout
import Tablewright.Proofs.Checks
import Tablewright.Proofs.Code.Alignment
import Tablewright.Proofs.Code.Written
import Tablewright.Proofs.Text.Runs

/-! The columns of structs and literals. A column is as wide in characters as its longest text is in
bytes, and no text has more characters than bytes, so that what stands behind a column begins at one
offset on all lines of a run. Embedded fields and values of several lines part the runs. -/

namespace Tablewright.Code

open Tablewright.Text

/-! ## Widths -/

theorem length_le_utf8ByteSize (s : String) : s.length ≤ s.utf8ByteSize := by
  refine s.push_induction (fun s => s.length ≤ s.utf8ByteSize) (Nat.le_refl 0) fun s c ih => ?_
  have hpos := c.utf8Size_pos
  rw [String.length_push, String.utf8ByteSize_push]
  omega

theorem length_le_columnWidth {texts : List String} {s : String} (h : s ∈ texts) :
    s.length ≤ columnWidth texts := by
  have hsize : s.utf8ByteSize ∈ texts.map String.utf8ByteSize := List.mem_map_of_mem h
  obtain ⟨widest, hwidest⟩ := Option.ne_none_iff_exists'.mp
    (mt List.max?_eq_none_iff.mp (List.ne_nil_of_mem hsize))
  have hle : s.utf8ByteSize ≤ widest := (List.max?_eq_some_iff.mp hwidest).2 _ hsize
  rw [columnWidth, List.foldl_max, hwidest]
  exact Nat.le_trans (length_le_utf8ByteSize s) (Nat.le_trans hle (Nat.le_max_right 0 widest))

/-- A text that fits is filled up to the width exactly, and one blank parts it from what follows. -/
theorem length_append_gap {width : Nat} {s : String} (h : s.length ≤ width) :
    (s.toList ++ gap (width - s.length)).length = width + 1 := by
  rw [List.length_append, String.length_toList, gap, List.length_replicate]
  omega

/-! ## Fields -/

section Fields

variable {fields before run after : List (Field × String)}

/-- The line of a named field: the type begins at one offset and the tags, if there are any, begin at
another, each behind a blank or several. -/
inductive IsFieldAt (typeAt tagsAt : Nat) (field : Field) (type : List Char) : List Char → Prop
  | untagged (name : String) (n : Nat) (hname : field.name = some name) (htags : field.tags = [])
      (htype : (name.toList ++ gap n).length = typeAt) :
    IsFieldAt typeAt tagsAt field type (name.toList ++ gap n ++ type)
  | tagged (name : String) (n m : Nat) (hname : field.name = some name) (htags : field.tags ≠ [])
      (htype : (name.toList ++ gap n).length = typeAt)
      (htag : (name.toList ++ gap n ++ type ++ gap m).length = tagsAt) :
    IsFieldAt typeAt tagsAt field type
      (name.toList ++ gap n ++ type ++ gap m ++ (tagText field.tags).toList)

/-- The offset at which the types of a run begin. -/
def typeOffset (run : List (Field × String)) : Nat := columnWidth (run.filterMap (·.1.name)) + 1

/-- The offset at which the tags of a run begin. -/
def tagsOffset (run : List (Field × String)) : Nat :=
  typeOffset run + (columnWidth (run.map (·.2)) + 1)

theorem isFieldAt_alignedFields (h : ∀ f ∈ run, f.1.name.isSome = true) :
    List.Forall₂ (fun f line =>
      IsFieldAt (typeOffset run) (tagsOffset run) f.1 f.2.toList line.toList) run
      (alignedFields run) := by
  refine List.forall₂_map_right_iff.mpr (List.forall₂_same.mpr fun f hf => ?_)
  obtain ⟨name, hname⟩ := Option.isSome_iff_exists.mp (h f hf)
  have hblank : " ".toList = [' '] := rfl
  have hnameFits : name.length ≤ columnWidth (run.filterMap (·.1.name)) :=
    length_le_columnWidth (List.mem_filterMap.mpr ⟨f, hf, hname⟩)
  have htypeFits : f.2.length ≤ columnWidth (run.map (·.2)) :=
    length_le_columnWidth (List.mem_map_of_mem hf)
  let n := columnWidth (run.filterMap (·.1.name)) - name.length
  let m := columnWidth (run.map (·.2)) - f.2.length
  have htype : (name.toList ++ gap n).length = typeOffset run := length_append_gap hnameFits
  simp only [hname, Option.getD_some]
  split
  · next htags =>
    have hline : IsFieldAt (typeOffset run) (tagsOffset run) f.1 f.2.toList
        (name.toList ++ gap n ++ f.2.toList) :=
      .untagged name n hname (List.isEmpty_iff.mp htags) htype
    simpa only [String.toList_append, hblank, List.append_assoc, List.cons_append, List.nil_append,
      pad_append_blank] using hline
  · next htags =>
    have htag : (name.toList ++ gap n ++ f.2.toList ++ gap m).length = tagsOffset run := by
      rw [List.append_assoc, List.length_append, htype, length_append_gap htypeFits, tagsOffset]
    have hline := IsFieldAt.tagged name n m hname (mt List.isEmpty_iff.mpr htags) htype htag
    simpa only [String.toList_append, hblank, List.append_assoc, List.cons_append, List.nil_append,
      pad_append_blank] using hline

/-- A maximal run of named fields is written together, apart from what comes before and after. -/
theorem fieldLines_eq (h : IsMaximalRun (fun f : Field × String => f.1.name.isSome) before run after) :
    fieldLines (before ++ run ++ after) =
      fieldLines before ++ (alignedFields run ++ fieldLines after) := by
  have hnamed : ∀ (f : Field × String), f ∈ run → f.1.name ≠ none := fun f hf hnone => by
    have hsome := h.all f hf
    rw [hnone] at hsome
    cases hsome
  unfold fieldLines
  rw [h.runs_eq, List.flatMap_append, List.flatMap_cons]
  split
  · exact absurd rfl (hnamed _ List.mem_cons_self)
  · rfl

end Fields

/-- None of the texts of a field ends a line. -/
structure Field.OnOneLine (f : Field) : Prop where
  name : ∀ name ∈ f.name, '\n' ∉ name.toList
  type : '\n' ∉ f.type.render.toList
  tags : ∀ tag ∈ f.tags, '\n' ∉ tag.1.toList ∧ '\n' ∉ tag.2.toList

instance : DecidablePred Field.OnOneLine := fun f =>
  decidable_of_iff ((∀ name ∈ f.name, '\n' ∉ name.toList) ∧ '\n' ∉ f.type.render.toList ∧
    ∀ tag ∈ f.tags, '\n' ∉ tag.1.toList ∧ '\n' ∉ tag.2.toList)
    ⟨fun ⟨hname, htype, htags⟩ => ⟨hname, htype, htags⟩, fun h => ⟨h.name, h.type, h.tags⟩⟩

/-- Lines that stand for the fields of a struct: one for each of them, in order. That of an embedded
field is its type. In a run of named fields all types begin at one offset, and so do all tags. -/
structure FieldsAligned (fields : List Field) (lines : List String) : Prop where
  embedded : List.Forall₂ (fun f line => f.name = none → line = f.type.render) fields lines
  oneLine : ∀ line ∈ lines, '\n' ∉ line.toList
  aligned : ∀ before run after, fields = before ++ run ++ after →
    IsMaximalRun (·.name.isSome) before run after →
    ∃ typeAt tagsAt first middle last, lines = first ++ middle ++ last ∧
      first.length = before.length ∧ List.Forall₂ (fun f line =>
        IsFieldAt typeAt tagsAt f f.type.render.toList line.toList) run middle

theorem notMem_gap (n : Nat) : '\n' ∉ gap n := fun h =>
  absurd (List.eq_of_mem_replicate h) (by decide)

theorem Field.OnOneLine.notMem_tagText {f : Field} (h : f.OnOneLine) :
    '\n' ∉ (tagText f.tags).toList := by
  have hjoin : Chars (· ≠ '\n') (tagText f.tags) := by
    refine (Chars.append (by decide) (Chars.join (by decide) ?_)).append (by decide)
    refine List.forall_mem_map.mpr fun tag htag => ?_
    obtain ⟨hkey, hvalue⟩ := h.tags tag htag
    have hchars : ∀ {s : String}, '\n' ∉ s.toList → Chars (· ≠ '\n') s :=
      fun hs c hc hfeed => hs (hfeed ▸ hc)
    exact (((hchars hkey).append (by decide)).append (hchars hvalue)).append (by decide)
  exact fun hmem => hjoin _ hmem rfl

theorem Field.OnOneLine.notMem_line {f : Field} (h : f.OnOneLine) {line : List Char}
    (hline : IsFieldLine f f.type.render.toList line) : '\n' ∉ line := by
  cases hline with
  | embedded => exact h.type
  | untagged name hname n =>
    simp only [List.mem_append, not_or]
    exact ⟨h.name name hname, notMem_gap n, h.type⟩
  | tagged name hname n m =>
    simp only [List.mem_append, not_or]
    exact ⟨h.name name hname, notMem_gap n, h.type, notMem_gap m, h.notMem_tagText⟩

/-- The line of an embedded field is its type. -/
theorem IsFieldLine.eq_type {f : Field} {type line : List Char} (h : IsFieldLine f type line)
    (hembedded : f.name = none) : line = type := by
  cases h with
  | embedded => rfl
  | untagged name hname | tagged name hname =>
    rw [hembedded] at hname
    cases hname

/-- However long the texts of fields are, and whatever characters they hold, the lines of a struct
stand for its fields, in columns. -/
theorem fieldLines_aligned (fields : List Field) (h : ∀ f ∈ fields, f.OnOneLine) :
    FieldsAligned fields (fieldLines (fields.map fun f => (f, f.type.render))) := by
  have hlines := List.forall₂_map_left_iff.mp
    (forall₂_fieldLines (fields.map fun f => (f, f.type.render)))
  refine ⟨?embedded, ?oneLine, ?aligned⟩
  case embedded =>
    exact hlines.imp fun f line hline hembedded => String.toList_inj.mp (hline.eq_type hembedded)
  case oneLine =>
    intro line hmem
    obtain ⟨f, hf, hline⟩ := Checks.exists_of_forall₂ hlines line hmem
    exact (h f hf).notMem_line hline
  case aligned =>
    rintro before run after rfl hrun
    let pairs : List Field → List (Field × String) := List.map fun f => (f, f.type.render)
    have hpairs : IsMaximalRun (fun f : Field × String => f.1.name.isSome) (pairs before)
        (pairs run) (pairs after) := hrun.map fun _ => rfl
    have hbefore := (forall₂_fieldLines (pairs before)).length_eq
    rw [List.length_map] at hbefore
    refine ⟨typeOffset (pairs run), tagsOffset (pairs run), fieldLines (pairs before),
      alignedFields (pairs run), fieldLines (pairs after), ?_, hbefore.symm,
      List.forall₂_map_left_iff.mp (isFieldAt_alignedFields hpairs.all)⟩
    rw [List.map_append, List.map_append, fieldLines_eq hpairs, List.append_assoc]

/-- Two runs with an embedded field between them. The letters of names and types take up to three
bytes, so that the columns are wider than the texts in them. -/
theorem accountFields_aligned :
    let fields : List Field := [
      ⟨some "口座", .slice (.named "byte"), [("json", "口座"), ("yaml", "é")]⟩,
      .plain "id" (.named "uint64"), .embedded (.pointer (.qualified "example/entity" "Item")),
      .plain "é" .any, ⟨some "n", .named "größe", [("json", "n")]⟩]
    let lines := fieldLines (fields.map fun f => (f, f.type.render))
    (∀ f ∈ fields, f.OnOneLine) ∧
      lines = ["口座     []byte `json:\"口座\" yaml:\"é\"`", "id     uint64", "*entity.Item",
        "é  interface\x7b\x7d", "n  größe       `json:\"n\"`"] ∧
      FieldsAligned fields lines := by
  intro fields lines
  have h : ∀ f ∈ fields, f.OnOneLine := by decide
  exact ⟨h, by decide +kernel, fieldLines_aligned fields h⟩

/-! ## Entries -/

section Entries

variable {level : Nat} {entries before run after : List (String × String)}

/-- The text of an entry up to its value: tabs, the key, a colon, and a blank or several. -/
def entryStart (level : Nat) (key : String) (n : Nat) : List Char :=
  (tabs (level + 1)).toList ++ key.toList ++ ':' :: gap n

/-- The text of an entry: its value begins at an offset, on the line on which the text begins, and
behind it are a comma and the end of the line. -/
inductive IsEntryAt (level offset : Nat) (key value : String) : List Char → Prop
  | mk (n : Nat) (hstart : '\n' ∉ entryStart level key n)
      (hoffset : (entryStart level key n).length = offset) :
    IsEntryAt level offset key value (entryStart level key n ++ value.toList ++ [',', '\n'])

/-- The lines of a literal, run by run. A value that takes several lines is written on its own, and
any other together with those that follow up to the next such value. -/
def linesByRun : List (String × String) → List String
  | [] => []
  | (key, value) :: rest =>
    if isOneLine value then
      alignedEntries ((key, value) :: rest.takeWhile (isOneLine ·.2)) ++
        linesByRun (rest.dropWhile (isOneLine ·.2))
    else (key ++ ": " ++ value ++ ",") :: linesByRun rest
termination_by entries => entries.length
decreasing_by
  · exact Nat.lt_succ_of_le (List.dropWhile_suffix _).length_le
  · exact Nat.lt_succ_self _

/-- The texts of the entries of a literal at a level. -/
def entryTexts (level : Nat) (entries : List (String × String)) : List String :=
  (linesByRun entries).map fun line => tabs (level + 1) ++ line ++ "\n"

/-- The run that the entries begin with ends before the next value that takes several lines. -/
theorem isMaximalRun_entries (key : String) {value : String} (rest : List (String × String))
    (h : isOneLine value = true) :
    IsMaximalRun (fun e : String × String => isOneLine e.2) []
      ((key, value) :: rest.takeWhile (isOneLine ·.2)) (rest.dropWhile (isOneLine ·.2)) :=
  isMaximalRun_takeWhile (fun e : String × String => isOneLine e.2) (key, value) rest h

/-- A maximal run of values on one line is written together, apart from what comes before and
after. -/
theorem entryLines_eq (h : IsMaximalRun (isOneLine ·.2) before run after) :
    entryLines (before ++ run ++ after) =
      entryLines before ++ (alignedEntries run ++ entryLines after) := by
  unfold entryLines
  rw [h.runs_eq, List.flatMap_append, List.flatMap_cons]
  split
  · rw [if_pos (h.all _ List.mem_cons_self)]
  · rfl

theorem entryLines_cons_of_several {key value : String} (h : isOneLine value = false)
    (rest : List (String × String)) :
    entryLines ((key, value) :: rest) = (key ++ ": " ++ value ++ ",") :: entryLines rest := by
  have hruns : runs (isOneLine ·.2) ((key, value) :: rest) = [(key, value)] :: runs _ rest :=
    runs_cons_of_cut (.inl h)
  unfold entryLines
  rw [hruns, List.flatMap_cons]
  show (if isOneLine value = true then _ else _) ++ _ = _
  rw [if_neg (Bool.eq_false_iff.mp h), List.singleton_append]

theorem entryLines_eq_linesByRun (entries : List (String × String)) :
    entryLines entries = linesByRun entries := by
  fun_induction linesByRun entries with
  | case1 => rfl
  | case2 key value rest hone ih =>
    have hlines := entryLines_eq (isMaximalRun_entries key rest hone)
    rw [List.nil_append, List.cons_append, List.takeWhile_append_dropWhile, ih] at hlines
    exact hlines
  | case3 key value rest hseveral ih =>
    rw [entryLines_cons_of_several (Bool.eq_false_iff.mpr hseveral), ih]

/-- The offset at which the values of a run begin. -/
def valueOffset (level : Nat) (run : List (String × String)) : Nat :=
  level + 1 + (columnWidth (run.map fun e => e.1 ++ ":") + 1)

theorem notMem_entryStart {key : String} (hkey : '\n' ∉ key.toList) (n : Nat) :
    '\n' ∉ entryStart level key n := by
  have htabs : Chars (· ≠ '\n') (tabs (level + 1)) := chars_tabs (by decide) _
  have hcolon : '\n' ≠ ':' := by decide
  simp only [entryStart, List.mem_append, List.mem_cons, not_or]
  exact ⟨⟨fun h => htabs _ h rfl, hkey⟩, hcolon, notMem_gap n⟩

theorem toList_entryText {key value line : String} {n : Nat}
    (h : line.toList = key.toList ++ ':' :: (gap n ++ (value.toList ++ [',']))) :
    (tabs (level + 1) ++ line ++ "\n").toList =
      entryStart level key n ++ value.toList ++ [',', '\n'] := by
  have hfeed : "\n".toList = ['\n'] := rfl
  simp only [String.toList_append, h, hfeed, entryStart, List.append_assoc, List.cons_append,
    List.nil_append]

theorem isEntryAt_alignedEntries (hkeys : ∀ e ∈ run, '\n' ∉ e.1.toList) :
    List.Forall₂ (fun e line =>
      IsEntryAt level (valueOffset level run) e.1 e.2 (tabs (level + 1) ++ line ++ "\n").toList) run
      (alignedEntries run) := by
  refine List.forall₂_map_right_iff.mpr (List.forall₂_same.mpr fun e he => ?_)
  have hmarks : " ".toList = [' '] ∧ ":".toList = [':'] ∧ ",".toList = [','] := ⟨rfl, rfl, rfl⟩
  have hfits : (e.1 ++ ":").length ≤ columnWidth (run.map fun e => e.1 ++ ":") :=
    length_le_columnWidth (List.mem_map.mpr ⟨e, he, rfl⟩)
  let n := columnWidth (run.map fun e => e.1 ++ ":") - (e.1 ++ ":").length
  have hoffset : (entryStart level e.1 n).length = valueOffset level run := by
    have hlabel := length_append_gap hfits
    rw [String.toList_append, hmarks.2.1, List.append_assoc, List.singleton_append] at hlabel
    rw [entryStart, List.append_assoc, List.length_append, hlabel, tabs, String.toList_ofList,
      List.length_replicate, valueOffset]
  rw [toList_entryText (n := n)]
  · exact .mk n (notMem_entryStart (hkeys e he) n) hoffset
  · simp only [String.toList_append, hmarks, List.append_assoc, List.cons_append, List.nil_append,
      pad_append_blank, n]

/-- Texts that stand for the entries of a literal: one for each of them, in order. A value of several
lines stands behind a single blank. In a run of values on one line all begin at one offset. -/
structure EntriesAligned (level : Nat) (entries : List (String × String)) (texts : List String) :
    Prop where
  each : List.Forall₂ (fun e text => ∃ offset, IsEntryAt level offset e.1 e.2 text.toList) entries
    texts
  several : List.Forall₂ (fun e text => isOneLine e.2 = false →
    text.toList = entryStart level e.1 0 ++ e.2.toList ++ [',', '\n']) entries texts
  aligned : ∀ before run after, entries = before ++ run ++ after →
    IsMaximalRun (isOneLine ·.2) before run after →
    ∃ offset first middle last, texts = first ++ middle ++ last ∧ first.length = before.length ∧
      List.Forall₂ (fun e text => IsEntryAt level offset e.1 e.2 text.toList) run middle

/-- Behind the key of a value that takes several lines come a colon and one blank. -/
theorem forall₂_linesByRun (entries : List (String × String)) :
    List.Forall₂ (fun e line => isOneLine e.2 = false → line = e.1 ++ ": " ++ e.2 ++ ",") entries
      (linesByRun entries) := by
  fun_induction linesByRun entries with
  | case1 => exact .nil
  | case2 key value rest hone ih =>
    let run := (key, value) :: rest.takeWhile (isOneLine ·.2)
    have hall : ∀ e ∈ run, isOneLine e.2 = true :=
      (isMaximalRun_entries key rest hone).all
    have hrun : List.Forall₂ (fun e line => isOneLine e.2 = false → line = e.1 ++ ": " ++ e.2 ++ ",")
        run (alignedEntries run) := by
      refine List.forall₂_map_right_iff.mpr (List.forall₂_same.mpr fun e he hseveral => ?_)
      rw [hall e he] at hseveral
      cases hseveral
    have hsplit : run ++ rest.dropWhile (isOneLine ·.2) = (key, value) :: rest := by
      rw [List.cons_append, List.takeWhile_append_dropWhile]
    rw [← hsplit]
    exact List.rel_append hrun ih
  | case3 key value rest hseveral ih => exact .cons (fun _ => rfl) ih

theorem entriesAligned_entryTexts (hkeys : ∀ e ∈ entries, '\n' ∉ e.1.toList) :
    EntriesAligned level entries (entryTexts level entries) := by
  refine ⟨?each, ?several, ?aligned⟩
  case each =>
    rw [entryTexts, ← entryLines_eq_linesByRun]
    have hlines := (List.forall₂_and_left entries _).mpr ⟨hkeys, forall₂_entryLines entries⟩
    refine List.forall₂_map_right_iff.mpr (hlines.imp ?_)
    rintro e line ⟨hkey, n, hline⟩
    refine ⟨(entryStart level e.1 n).length, ?_⟩
    rw [toList_entryText hline]
    exact .mk n (notMem_entryStart hkey n) rfl
  case several =>
    refine List.forall₂_map_right_iff.mpr ((forall₂_linesByRun entries).imp ?_)
    intro e line hline hseveral
    refine toList_entryText ?_
    rw [hline hseveral]
    simp [gap]
  case aligned =>
    rintro before run after rfl hrun
    have hrunKeys : ∀ e ∈ run, '\n' ∉ e.1.toList := fun e he => hkeys e (by simp [he])
    have hbefore := (forall₂_entryLines before).length_eq
    rw [entryTexts, ← entryLines_eq_linesByRun, entryLines_eq hrun, List.map_append,
      List.map_append, ← List.append_assoc]
    exact ⟨valueOffset level run, _, _, _, rfl, by rw [List.length_map, hbefore],
      List.forall₂_map_right_iff.mpr (isEntryAt_alignedEntries hrunKeys)⟩

end Entries

/-- A literal writes each of its entries once, in order, run by run, in columns. -/
theorem keyedBody_aligned (level : Nat) (entries : List (String × String))
    (hkeys : ∀ e ∈ entries, '\n' ∉ e.1.toList) :
    (entries = [] → keyedBody level entries = "") ∧
      (entries ≠ [] → keyedBody level entries =
        "\n" ++ String.join (entryTexts level entries) ++ tabs level) ∧
      EntriesAligned level entries (entryTexts level entries) := by
  refine ⟨?_, ?_, entriesAligned_entryTexts hkeys⟩
  · rintro rfl
    rfl
  · intro hne
    rw [keyedBody, if_neg (mt List.isEmpty_iff.mp hne), entryLines_eq_linesByRun]
    rfl

/-- A value of two lines between two runs, the second of which is a single entry. -/
theorem handlerEntries_aligned :
    let entries := [("é", "1"), ("名前", "items"), ("get", "func() \x7b\n\t\x7d"), ("qb", "2")]
    (∀ e ∈ entries, '\n' ∉ e.1.toList) ∧
      keyedBody 0 entries =
        "\n\té:      1,\n\t名前:     items,\n\tget: func() \x7b\n\t\x7d,\n\tqb: 2,\n" ∧
      keyedBody 0 entries = "\n" ++ String.join (entryTexts 0 entries) ++ tabs 0 ∧
      EntriesAligned 0 entries (entryTexts 0 entries) := by
  intro entries
  have hkeys : ∀ e ∈ entries, '\n' ∉ e.1.toList := by decide
  obtain ⟨_, htext, haligned⟩ := keyedBody_aligned 0 entries hkeys
  exact ⟨hkeys, by decide +kernel, htext (List.cons_ne_nil _ _), haligned⟩

end Tablewright.Code
