import Tablewright.Proofs.Schema.Validity

/-! What the columns of a table say of its indexes. A column lists the indexes that cover it, in
their order, the unique ones apart from the others. An index stands in the list of a column once
for every time that the index lists the column, and the primary key marks its column instead. -/

namespace Tablewright

open Sql

/-! ## References -/

/-- The names of the indexes, each once for every time that the index lists the column. -/
def references (indexes : List Index) (column : String) : List String :=
  indexes.flatMap fun i => List.replicate (i.columns.count column) i.name

namespace Index

/-- A unique index that is not the primary key. -/
def isUniqueKey (i : Index) : Bool := i.isUnique && !i.isPrimaryKey

def isPlain (i : Index) : Bool := !i.isUnique

/-- The index is of the same kind as the other. -/
def isLike (other i : Index) : Bool := if other.isUnique then i.isUniqueKey else i.isPlain

end Index

/-- The list of a column in which indexes like this one stand. -/
def Column.keysLike (c : Column) (i : Index) : List String :=
  if i.isUnique then c.uniqueIndexKeys else c.indexKeys

namespace Table

/-- The columns mirror the indexes. -/
structure MirrorsIndexes (t : Table) : Prop where
  primary : ∀ c ∈ t.columns, c.isPrimaryKey = true ↔
    ∃ i, t.primaryKey? = some i ∧ c.name ∈ i.columns
  unique : ∀ c ∈ t.columns,
    c.uniqueIndexKeys = references (t.indexes.filter (·.isUniqueKey)) c.name
  plain : ∀ c ∈ t.columns, c.indexKeys = references (t.indexes.filter (·.isPlain)) c.name
  /-- What an index covers are columns of the table. -/
  covered : ∀ i ∈ t.indexes, ∀ name ∈ i.columns, ∃ c ∈ t.columns, c.name = name
  /-- An index stands with its name in the lists of the columns that it covers, between the indexes
  before it and those behind it. -/
  stands : ∀ before i after, t.indexes = before ++ i :: after → i.isPrimaryKey = false →
    ∀ c ∈ t.columns, c.keysLike i =
      references (before.filter i.isLike) c.name ++
        List.replicate (i.columns.count c.name) i.name ++
        references (after.filter i.isLike) c.name
  /-- A name in the list of a column is that of an index that covers the column. -/
  named : ∀ c ∈ t.columns, ∀ name,
    (name ∈ c.uniqueIndexKeys ↔
      ∃ i ∈ t.indexes, i.isUniqueKey = true ∧ i.name = name ∧ c.name ∈ i.columns) ∧
    (name ∈ c.indexKeys ↔
      ∃ i ∈ t.indexes, i.isPlain = true ∧ i.name = name ∧ c.name ∈ i.columns)

end Table

variable {indexes : List Index} {column name : String}

theorem references_append (before after : List Index) (column : String) :
    references (before ++ after) column = references before column ++ references after column :=
  List.flatMap_append

theorem references_cons (i : Index) (rest : List Index) (column : String) :
    references (i :: rest) column =
      List.replicate (i.columns.count column) i.name ++ references rest column :=
  List.flatMap_cons

theorem mem_references :
    name ∈ references indexes column ↔ ∃ i ∈ indexes, i.name = name ∧ column ∈ i.columns := by
  unfold references
  simp only [List.mem_flatMap, List.mem_replicate, ne_eq, List.count_eq_zero, not_not]
  exact exists_congr fun i => and_congr_right fun _ => by rw [and_comm, eq_comm]

theorem mem_references_filter {p : Index → Bool} :
    name ∈ references (indexes.filter p) column ↔
      ∃ i ∈ indexes, p i = true ∧ i.name = name ∧ column ∈ i.columns := by
  simp only [mem_references, List.mem_filter, and_assoc]

namespace Declaration

/-! ## Owners -/

theorem owners_cons (i : Index) (rest : List Index) (column : String) :
    owners (i :: rest) column =
      List.replicate (i.columns.count column) i ++ owners rest column := by
  unfold owners
  rw [List.flatMap_cons, List.map_const', List.count_eq_length_filter]
  rfl

/-- Of the indexes that own a column, those of one kind are the references of that kind. -/
theorem map_name_filter_owners (indexes : List Index) (column : String) (p : Index → Bool) :
    ((owners indexes column).filter p).map (·.name) = references (indexes.filter p) column := by
  induction indexes with
  | nil => rfl
  | cons i rest ih =>
    rw [owners_cons, List.filter_append, List.map_append, ih, List.filter_cons]
    split
    · rename_i hp
      rw [List.filter_replicate_of_pos hp, List.map_replicate, references_cons]
    · rename_i hp
      rw [List.filter_replicate_of_neg hp]
      rfl

theorem IsColumn.uniqueIndexKeys {d : ColumnDefinition} {c : Column}
    (h : IsColumn indexes d c) :
    c.uniqueIndexKeys = references (indexes.filter (·.isUniqueKey)) c.name := by
  obtain ⟨type, _, rfl⟩ := Checks.map_eq_ok.mp h
  rw [← map_name_filter_owners]
  simp only [Index.isUniqueKey, Bool.and_comm]

/-- The primary key is unique, so that no plain index is passed over. -/
theorem IsColumn.indexKeys {d : ColumnDefinition} {c : Column} (h : IsColumn indexes d c)
    (hunique : ∀ i ∈ indexes, i.isPrimaryKey = true → i.isUnique = true) :
    c.indexKeys = references (indexes.filter (·.isPlain)) c.name := by
  obtain ⟨type, _, rfl⟩ := Checks.map_eq_ok.mp h
  have hkind : ∀ i ∈ indexes, (!i.isPrimaryKey && !i.isUnique) = i.isPlain := by
    intro i hi
    have hprimary := hunique i hi
    cases hp : i.isPrimaryKey <;> simp_all [Index.isPlain]
  rw [← List.filter_congr hkind, ← map_name_filter_owners]

theorem isPrimaryKey_iff_covered {create : CreateTable} {t : Table} (keeps : Keeps create)
    (declares : Declares create t) {c : Column} (hc : c ∈ t.columns) :
    c.isPrimaryKey = true ↔ ∃ i, t.primaryKey? = some i ∧ c.name ∈ i.columns := by
  obtain ⟨primary, hfilter, _⟩ := keeps.primary
  have hkey : t.primaryKey? = some primary := by
    rw [Table.primaryKey?, ← List.head?_filter, declares.indexes, hfilter]
    rfl
  have honly : ∀ i, i ∈ indexes create ∧ i.isPrimaryKey = true ↔ i = primary := by
    intro i
    rw [← List.mem_filter, hfilter, List.mem_singleton]
  rw [declares.isPrimaryKey_iff hc, declares.indexes, hkey]
  simp only [← and_assoc, honly, Option.some.injEq, eq_comm (a := primary)]

/-- The columns of an accepted table mirror its indexes. -/
theorem ofCreate_mirrorsIndexes {create : CreateTable} {t : Table}
    (h : Table.ofCreate create = .ok t) : t.MirrorsIndexes := by
  obtain ⟨keeps, declares⟩ := ofCreate_eq_ok.mp h
  have hunique : ∀ c ∈ t.columns,
      c.uniqueIndexKeys = references (t.indexes.filter (·.isUniqueKey)) c.name := by
    intro c hc
    obtain ⟨d, _, hd⟩ := Checks.exists_of_forall₂ declares.columns c hc
    rw [declares.indexes]
    exact hd.uniqueIndexKeys
  have hplain : ∀ c ∈ t.columns,
      c.indexKeys = references (t.indexes.filter (·.isPlain)) c.name := by
    intro c hc
    obtain ⟨d, _, hd⟩ := Checks.exists_of_forall₂ declares.columns c hc
    rw [declares.indexes]
    exact hd.indexKeys (isUnique_of_isPrimaryKey create)
  refine ⟨fun c hc => isPrimaryKey_iff_covered keeps declares hc, hunique, hplain, ?covered,
    ?stands, ?named⟩
  case covered =>
    intro i hi name hname
    have hdeclared := (keeps.sound i (declares.indexes ▸ hi) name hname).2
    rw [← declares.columnNames] at hdeclared
    exact List.mem_map.mp hdeclared
  case stands =>
    intro before i after hindexes hprimary c hc
    have hkeys : c.keysLike i = references (t.indexes.filter i.isLike) c.name := by
      unfold Column.keysLike Index.isLike
      split
      · exact hunique c hc
      · exact hplain c hc
    have hself : i.isLike i = true := by
      unfold Index.isLike Index.isUniqueKey Index.isPlain
      cases hi : i.isUnique <;> simp [hprimary]
    rw [hkeys, hindexes, List.filter_append, List.filter_cons_of_pos hself, references_append,
      references_cons, List.append_assoc]
  case named =>
    intro c hc name
    rw [hunique c hc, hplain c hc]
    exact ⟨mem_references_filter, mem_references_filter⟩

/-- Keys of columns and keys of the table. Two indexes are named `rank`, and one of them lists the
column twice. -/
def rankedItems : CreateTable :=
  { name := [⟨"items", none⟩]
    columns := [
      ⟨⟨"id", none⟩, .integer "INT" none false, [.primaryKey]⟩,
      ⟨⟨"rank", none⟩, .integer "INT" none false, [.unique]⟩,
      ⟨⟨"level", none⟩, .integer "INT" none false, []⟩]
    constraints := [
      .index (some ⟨"rank", none⟩) [⟨"rank", none⟩, ⟨"level", none⟩, ⟨"rank", none⟩],
      .unique none none [⟨"level", none⟩, ⟨"rank", none⟩]] }

def rankedItemsTable : Table :=
  { name := "items"
    columns := [
      ⟨"id", "int", .int32, 0, false, false, false, none, true, [], []⟩,
      ⟨"rank", "int", .int32, 0, false, false, false, none, false, ["rank", "level"],
        ["rank", "rank"]⟩,
      ⟨"level", "int", .int32, 0, false, false, false, none, false, ["level"], ["rank"]⟩]
    indexes := [
      ⟨"PRIMARY", true, true, ["id"]⟩,
      ⟨"rank", false, true, ["rank"]⟩,
      ⟨"rank", false, false, ["rank", "level", "rank"]⟩,
      ⟨"level", false, true, ["level", "rank"]⟩]
    isReadOnly := true }

theorem rankedItems_mirrorsIndexes :
    Table.ofCreate rankedItems = .ok rankedItemsTable ∧ rankedItemsTable.MirrorsIndexes := by
  have haccepted : Table.ofCreate rankedItems = .ok rankedItemsTable :=
    Checks.eq_ok_of_toOption (by decide +kernel)
  exact ⟨haccepted, ofCreate_mirrorsIndexes haccepted⟩

end Declaration

end Tablewright
