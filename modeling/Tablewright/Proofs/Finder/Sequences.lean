import Tablewright.Proofs.Finder.Declared
import Tablewright.Proofs.Noun.Plurals

/-! Lookups by a sequence of values. Every index offers one for its first column, next to the lookup
of that column by equality, and the two are told apart by the plural. An index may not cover a column
that is its own plural, so the lookup by a sequence is never taken for the other and dropped. -/

namespace Tablewright.Finder

open Declaration

theorem name_prefixLookup (isUnique : Bool) (cs : List Column) (k : Nat) :
    (prefixLookup isUnique cs k).name = "FindBy" ++ Text.join "And"
      (((prefixLookup isUnique cs k).args.map (·.column)).map Names.field) := by
  rw [map_column_args_prefixLookup, List.map_map]
  rfl

/-- A lookup by equality of one column is named for its field. -/
theorem name_of_eq {t : Table} {f : Finder} (hf : f ∈ t.finders) (heq : f.lookup = .eq)
    {name : String} (hargs : f.args.map (·.column) = [name]) :
    f.name = "FindBy" ++ Names.field name := by
  rcases mem_lookups.mp (mem_lookups_of_mem_finders hf) with
    ⟨_, rfl⟩ | ⟨i, _, c, p, _, _, rfl | ⟨_, rfl⟩⟩
  · cases hargs
  · rw [name_prefixLookup, hargs]
    rfl
  · cases heq

theorem name_firstLookup (isUnique : Bool) {c : Column} (hc : c.name ≠ userIdColumn)
    (cs : List Column) :
    (prefixLookup isUnique (c :: cs) 1).name = "FindBy" ++ Names.field c.name := by
  have hgiven : givenColumns ((c :: cs).take 1) = [c] :=
    List.filter_cons_of_pos (by simpa using hc)
  rw [name_prefixLookup, map_column_args_prefixLookup, hgiven]
  rfl

/-- The lookups of an index begin with the two of its first column. -/
theorem ofIndex_eq_cons {t : Table} {i : Index} {c : Column} {cs : List Column}
    (hcolumns : indexColumns t i = c :: cs) (hc : c.name ≠ userIdColumn) :
    ∃ rest, ofIndex t i =
      prefixLookup i.isUnique (c :: cs) 1 :: sequenceLookup c :: rest := by
  have hlookups : indexLookups t i =
      (indexColumns t i).zipIdx.flatMap (lookupsAt i.isUnique (indexColumns t i)) := rfl
  refine ⟨(cs.zipIdx 1).flatMap (lookupsAt i.isUnique (c :: cs)), ?_⟩
  rw [ofIndex_eq_indexLookups, hlookups, hcolumns, List.zipIdx_cons, List.flatMap_cons]
  simp only [lookupsAt, if_neg hc, if_pos, Nat.zero_add]
  rfl

/-- The name of a lookup by a sequence is kept, and not for the lookup of the column by equality. -/
theorem exists_named_sequence {t : Table} {c : Column} (h : sequenceLookup c ∈ candidates t)
    (hne : Names.field c.name ≠ Names.pluralField c.name) :
    ∃ f ∈ t.finders, f.name = "FindBy" ++ Names.pluralField c.name ∧
      ¬ (f.lookup = .eq ∧ f.args.map (·.column) = [c.name]) := by
  rcases name_mem_firstOfEachName [] h with hseen | hkept
  · cases hseen
  · obtain ⟨f, hf, hname⟩ := List.mem_map.mp hkept
    refine ⟨f, hf, hname, ?_⟩
    rintro ⟨heq, hargs⟩
    have hsame := (name_of_eq hf heq hargs).symm.trans hname
    exact hne ((String.append_right_inj _).mp hsame)

/-- Of an accepted table with plain names, the first column of an index has two lookups with
different names, and the name of the lookup by a sequence is kept for a lookup that does not compare
this column for equality. -/
theorem ofCreate_keepsSequences {create : Sql.CreateTable} {t : Table}
    (h : Table.ofCreate create = .ok t) (hsnake : ∀ c ∈ t.columns, Names.IsSnake c.name) {i : Index}
    (hi : i ∈ t.indexes) {name : String} (hfirst : i.columns.head? = some name)
    (howner : name ≠ userIdColumn) :
    ∃ c ∈ t.columns, c.name = name ∧
      (∃ cs rest, ofIndex t i =
        prefixLookup i.isUnique (c :: cs) 1 :: sequenceLookup c :: rest ∧
        (prefixLookup i.isUnique (c :: cs) 1).name = "FindBy" ++ Names.field name) ∧
      (sequenceLookup c).name = "FindBy" ++ Names.pluralField name ∧
      "FindBy" ++ Names.field name ≠ "FindBy" ++ Names.pluralField name ∧
      ∃ f ∈ t.finders, f.name = "FindBy" ++ Names.pluralField name ∧
        ¬ (f.lookup = .eq ∧ f.args.map (·.column) = [name]) := by
  obtain ⟨keeps, declares⟩ := ofCreate_eq_ok.mp h
  obtain ⟨names, hnames⟩ := List.head?_eq_some_iff.mp hfirst
  have hmem : name ∈ i.columns := by
    rw [hnames]
    exact List.mem_cons_self
  obtain ⟨hplural, _⟩ := keeps.sound i (declares.indexes ▸ hi) name hmem
  obtain ⟨c, hc, rfl⟩ := Table.exists_column? (declares.resolves keeps i hi name hmem)
  have hct : c ∈ t.columns := List.mem_of_find?_eq_some hc
  have hcolumns : indexColumns t i = c :: names.filterMap t.column? := by
    rw [indexColumns, hnames, List.filterMap_cons_some hc]
  obtain ⟨rest, hrest⟩ := ofIndex_eq_cons hcolumns howner
  have hcandidate : sequenceLookup c ∈ candidates t := by
    refine List.mem_append_right _ (List.mem_flatMap.mpr ⟨i, hi, ?_⟩)
    rw [hrest]
    exact List.mem_cons_of_mem _ List.mem_cons_self
  have hne := Names.field_ne_pluralField (hsnake c hct) hplural
  exact ⟨c, hct, rfl, ⟨_, rest, hrest, name_firstLookup _ howner _⟩, rfl,
    mt (String.append_right_inj _).mp hne, exists_named_sequence hcandidate hne⟩

/-- A name that ends in a digit and an underscore: its plural ends in a word of its own. -/
def steppedItems : Sql.CreateTable :=
  { name := [⟨"items", none⟩]
    columns := [
      ⟨⟨"id", none⟩, .integer "INT" none false, [.primaryKey]⟩,
      ⟨⟨"step_1_", none⟩, .integer "INT" none false, []⟩]
    constraints := [.index none [⟨"step_1_", none⟩, ⟨"id", none⟩]] }

def steppedItemsTable : Table :=
  { name := "items"
    columns := [
      ⟨"id", "int", .int32, 0, false, false, false, none, true, [], ["step_1_"]⟩,
      ⟨"step_1_", "int", .int32, 0, false, false, false, none, false, [], ["step_1_"]⟩]
    indexes := [⟨"PRIMARY", true, true, ["id"]⟩, ⟨"step_1_", false, false, ["step_1_", "id"]⟩]
    isReadOnly := true }

theorem steppedItems_keepsSequences :
    Table.ofCreate steppedItems = .ok steppedItemsTable ∧
      (∀ c ∈ steppedItemsTable.columns, Names.IsSnake c.name) ∧
      Names.field "step_1_" = "Step1" ∧ Names.pluralField "step_1_" = "Step1S" ∧
      ∃ f ∈ steppedItemsTable.finders, f.name = "FindBy" ++ Names.pluralField "step_1_" ∧
        ¬ (f.lookup = .eq ∧ f.args.map (·.column) = ["step_1_"]) := by
  have h : Table.ofCreate steppedItems = .ok steppedItemsTable :=
    Checks.eq_ok_of_toOption (by decide +kernel)
  have hsnake : ∀ c ∈ steppedItemsTable.columns, Names.IsSnake c.name := by decide +kernel
  have hi : ⟨"step_1_", false, false, ["step_1_", "id"]⟩ ∈ steppedItemsTable.indexes :=
    List.mem_cons_of_mem _ List.mem_cons_self
  obtain ⟨_, _, _, _, _, _, hkept⟩ := ofCreate_keepsSequences h hsnake hi rfl (by decide)
  exact ⟨h, hsnake, by decide +kernel, by decide +kernel, hkept⟩

end Tablewright.Finder
