import Mathlib.Data.List.Nodup
import Tablewright.Dao.Basic
import Tablewright.Model.Basic
import Tablewright.Proofs.Schema.Accepted

/-! An accepted statement declares a valid table. The column that is marked as the primary key is
found by way of the indexes: each mark comes from an index that is the primary key and covers the
column, the checks leave one such index with one column at most, and a key that lists a column
covers exactly that one. -/

namespace Tablewright

open Sql

/-! ## Valid tables -/

/-- The index and the column that are the primary key, and the only ones marked so. -/
structure Table.IsPrimary (t : Table) (i : Index) (c : Column) : Prop where
  index : t.indexes.filter (·.isPrimaryKey) = [i]
  column : t.columns.filter (·.isPrimaryKey) = [c]
  covers : i.columns = [c.name]

structure Table.Valid (t : Table) : Prop where
  named : isSingular t.name = false
  distinct : (t.columns.map (·.name)).Nodup
  covered : ∀ i ∈ t.indexes, ∀ c ∈ i.columns, c ∈ t.columns.map (·.name) ∧ isPlural c = false
  unique : ∀ i ∈ t.indexes, i.isPrimaryKey = true → i.isUnique = true
  primary : ∃ i c, t.IsPrimary i c
  flag : t.isReadOnly = t.convention.isReadOnly

theorem Table.IsPrimary.primaryKey? {t : Table} {i : Index} {c : Column} (h : t.IsPrimary i c) :
    t.primaryKey? = some i := by
  unfold Table.primaryKey?
  rw [← List.head?_filter, h.index]
  rfl

theorem Table.IsPrimary.primaryKeyColumn? {t : Table} {i : Index} {c : Column}
    (h : t.IsPrimary i c) : t.primaryKeyColumn? = some c := by
  unfold Table.primaryKeyColumn?
  rw [← List.head?_filter, h.column]
  rfl

theorem Dao.exists_ofTable_iff (t : Table) :
    (∃ d, Dao.ofTable t = .ok d) ↔ ∃ c, t.primaryKeyColumn? = some c := by
  unfold Dao.ofTable
  cases t.primaryKeyColumn? with
  | none => simp
  | some c => simp

theorem Model.exists_ofTable_iff (t : Table) :
    (∃ m, Model.ofTable t = .ok m) ↔ ∃ c, t.primaryKeyColumn? = some c := by
  unfold Model.ofTable
  cases t.primaryKeyColumn? with
  | none => simp
  | some c => simp

/-- Among elements with distinct keys, a test that picks one key picks one element. -/
theorem filter_eq_singleton {α β : Type} {key : α → β} {p : α → Bool} {xs : List α} {x : α}
    (hn : (xs.map key).Nodup) (hx : x ∈ xs) (hp : ∀ y ∈ xs, p y = true ↔ key y = key x) :
    xs.filter p = [x] := by
  obtain ⟨before, after, rfl⟩ := List.append_of_mem hx
  rw [List.map_append, List.map_cons, List.nodup_middle, List.nodup_cons] at hn
  have other : ∀ y ∈ before ++ after, ¬ p y = true := by
    intro y hy hpy
    have hmem : y ∈ before ++ x :: after := by
      rcases List.mem_append.mp hy with hy | hy <;> simp [hy]
    have hkey := (hp y hmem).mp hpy
    exact hn.1 (by rw [← List.map_append, ← hkey]; exact List.mem_map_of_mem hy)
  have hb : before.filter p = [] :=
    List.filter_eq_nil_iff.mpr fun y hy => other y (List.mem_append_left after hy)
  have ha : after.filter p = [] :=
    List.filter_eq_nil_iff.mpr fun y hy => other y (List.mem_append_right before hy)
  rw [List.filter_append, List.filter_cons_of_pos ((hp x hx).mpr rfl), hb, ha]
  rfl

/-- Among elements with distinct keys, each is found by its key. -/
theorem find?_key {α β : Type} [DecidableEq β] {key : α → β} {xs : List α} {x : α}
    (hn : (xs.map key).Nodup) (hx : x ∈ xs) : xs.find? (key · = key x) = some x := by
  rw [← List.head?_filter, filter_eq_singleton hn hx (by simp)]
  rfl

namespace Declaration

/-! ## The indexes of a statement -/

/-- A key constraint names at least one column. -/
def ListsColumns : TableConstraint → Prop
  | .primaryKey columns | .unique _ _ columns | .index _ columns => columns ≠ []
  | .other => True

def KeysListColumns (create : CreateTable) : Prop := ∀ k ∈ create.constraints, ListsColumns k

/-- What holds of every index, from where an index can come from. -/
theorem forall_indexes {create : CreateTable} {p : Index → Prop}
    (inline : ∀ name option i, inlineIndex? name option = some i → p i)
    (listed : ∀ k ∈ create.constraints, ∀ i, constraintIndex? k = some i → p i) :
    ∀ i ∈ indexes create, p i := by
  intro i hi
  rcases List.mem_append.mp hi with hi | hi
  · obtain ⟨d, _, hi⟩ := List.mem_flatMap.mp hi
    obtain ⟨option, _, hi⟩ := List.mem_filterMap.mp hi
    exact inline d.name.text option i hi
  · obtain ⟨k, hk, hi⟩ := List.mem_filterMap.mp hi
    exact listed k hk i hi

theorem isUnique_of_isPrimaryKey (create : CreateTable) :
    ∀ i ∈ indexes create, i.isPrimaryKey = true → i.isUnique = true := by
  apply forall_indexes
  · intro name option i hi
    cases option <;> cases hi <;> simp
  · intro k _ i hi
    cases k <;> cases hi <;> simp

theorem columns_ne_nil {create : CreateTable} (hk : KeysListColumns create) :
    ∀ i ∈ indexes create, i.columns ≠ [] := by
  apply forall_indexes
  · intro name option i hi
    cases option <;> cases hi <;> simp
  · intro k hmem i hi
    have hlists := hk k hmem
    cases k <;> cases hi <;> simpa [ListsColumns] using hlists

/-! ## The columns of a statement -/

theorem mem_owners {indexes : List Index} {column : String} {i : Index} :
    i ∈ owners indexes column ↔ i ∈ indexes ∧ column ∈ i.columns := by
  simp only [owners, List.mem_flatMap, List.mem_map, List.mem_filter, decide_eq_true_eq]
  constructor
  · intro h
    obtain ⟨j, hj, c, ⟨hc, rfl⟩, rfl⟩ := h
    exact ⟨hj, hc⟩
  · intro h
    obtain ⟨hi, hc⟩ := h
    exact ⟨i, hi, column, ⟨hc, rfl⟩, rfl⟩

theorem IsColumn.name {indexes : List Index} {d : ColumnDefinition} {c : Column}
    (h : IsColumn indexes d c) : c.name = d.name.text := by
  obtain ⟨type, _, rfl⟩ := Checks.map_eq_ok.mp h
  rfl

/-- A column is marked as the primary key by the indexes that cover it. -/
theorem IsColumn.isPrimaryKey_iff {indexes : List Index} {d : ColumnDefinition} {c : Column}
    (h : IsColumn indexes d c) :
    c.isPrimaryKey = true ↔ ∃ i ∈ indexes, i.isPrimaryKey = true ∧ c.name ∈ i.columns := by
  obtain ⟨type, _, rfl⟩ := Checks.map_eq_ok.mp h
  simp only [List.any_eq_true, mem_owners]
  constructor
  · intro h
    obtain ⟨i, ⟨hi, hc⟩, hp⟩ := h
    exact ⟨i, hi, hp, hc⟩
  · intro h
    obtain ⟨i, hi, hp, hc⟩ := h
    exact ⟨i, ⟨hi, hc⟩, hp⟩

theorem names_of_isColumn {indexes : List Index} {definitions : List ColumnDefinition}
    {cs : List Column} (h : List.Forall₂ (IsColumn indexes) definitions cs) :
    cs.map (·.name) = definitions.map (·.name.text) := by
  induction h with
  | nil => rfl
  | cons hc _ ih => rw [List.map_cons, List.map_cons, ih, hc.name]

theorem Declares.columnNames {create : CreateTable} {t : Table} (h : Declares create t) :
    t.columns.map (·.name) = columnNames create :=
  names_of_isColumn h.columns

theorem Declares.isPrimaryKey_iff {create : CreateTable} {t : Table} (h : Declares create t)
    {c : Column} (hc : c ∈ t.columns) :
    c.isPrimaryKey = true ↔ ∃ i ∈ t.indexes, i.isPrimaryKey = true ∧ c.name ∈ i.columns := by
  obtain ⟨d, _, hd⟩ := Checks.exists_of_forall₂ h.columns c hc
  rw [h.indexes]
  exact hd.isPrimaryKey_iff

/-! ## Validity -/

theorem exists_isPrimary {create : CreateTable} {t : Table} (hk : KeysListColumns create)
    (keeps : Keeps create) (h : Declares create t) : ∃ i c, t.IsPrimary i c := by
  obtain ⟨i, hfilter, hlen⟩ := keeps.primary
  have hi : i ∈ indexes create ∧ i.isPrimaryKey = true :=
    List.mem_filter.mp (hfilter ▸ List.mem_singleton_self i)
  have hpos := List.length_pos_iff.mpr (columns_ne_nil hk i hi.1)
  obtain ⟨name, hname⟩ := List.length_eq_one_iff.mp (show i.columns.length = 1 by omega)
  have hdeclared := (keeps.sound i hi.1 name (by simp [hname])).2
  rw [← h.columnNames] at hdeclared
  obtain ⟨c, hc, hcname⟩ := List.mem_map.mp hdeclared
  refine ⟨i, c, by rw [h.indexes, hfilter], ?_, by rw [hname, hcname]⟩
  have hn : (t.columns.map (·.name)).Nodup := h.columnNames ▸ keeps.distinct
  refine filter_eq_singleton hn hc ?_
  intro y hy
  rw [h.isPrimaryKey_iff hy, h.indexes, hcname]
  constructor
  · intro h
    obtain ⟨j, hj, hjp, hjy⟩ := h
    -- the primary key that marks `y` is the only one there is
    have hji : j ∈ (indexes create).filter (·.isPrimaryKey) := List.mem_filter.mpr ⟨hj, hjp⟩
    rw [hfilter] at hji
    rw [List.mem_singleton.mp hji, hname] at hjy
    exact List.mem_singleton.mp hjy
  · intro hy
    exact ⟨i, hi.1, hi.2, by simp [hy, hname]⟩

theorem valid_of_declares {create : CreateTable} {t : Table} (hk : KeysListColumns create)
    (keeps : Keeps create) (h : Declares create t) : t.Valid where
  named := by rw [h.name]; exact keeps.named
  distinct := h.columnNames ▸ keeps.distinct
  covered := by
    intro i hi c hc
    obtain ⟨hplural, hdeclared⟩ := keeps.sound i (h.indexes ▸ hi) c hc
    exact ⟨h.columnNames ▸ hdeclared, hplural⟩
  unique := by rw [h.indexes]; exact isUnique_of_isPrimaryKey create
  primary := exists_isPrimary hk keeps h
  flag := h.flag

/-- The table of an accepted statement is valid, and so its sources can be generated. -/
theorem ofCreate_valid {create : CreateTable} {t : Table} (hk : KeysListColumns create)
    (h : Table.ofCreate create = .ok t) :
    t.Valid ∧ t.columns.map (·.name) = columnNames create ∧
      (∃ i c, t.primaryKey? = some i ∧ t.primaryKeyColumn? = some c ∧ t.IsPrimary i c) ∧
      (∃ d, Dao.ofTable t = .ok d) ∧ ∃ m, Model.ofTable t = .ok m := by
  obtain ⟨keeps, declares⟩ := ofCreate_eq_ok.mp h
  have valid := valid_of_declares hk keeps declares
  obtain ⟨i, c, hic⟩ := valid.primary
  have hcolumn := hic.primaryKeyColumn?
  exact ⟨valid, declares.columnNames, ⟨i, c, hic.primaryKey?, hcolumn, hic⟩,
    (Dao.exists_ofTable_iff t).mpr ⟨c, hcolumn⟩, (Model.exists_ofTable_iff t).mpr ⟨c, hcolumn⟩⟩

/-- A statement with an inline key, a composite unique key and a plain key over one of its parts. -/
def userItems : CreateTable :=
  { name := [⟨"app", none⟩, ⟨"user_items", some backtick⟩]
    columns := [
      ⟨⟨"id", none⟩, .integer "BIGINT" none true, [.notNull, .autoIncrement, .primaryKey]⟩,
      ⟨⟨"user_id", none⟩, .integer "BIGINT" none true, [.notNull]⟩,
      ⟨⟨"item_id", none⟩, .integer "INT" (some 11) false, []⟩]
    constraints := [
      .unique none (some ⟨"owned", none⟩) [⟨"user_id", none⟩, ⟨"item_id", none⟩],
      .index none [⟨"item_id", some backtick⟩]] }

def userItemsTable : Table :=
  { name := "user_items"
    columns := [
      ⟨"id", "bigint", .uint64, 0, true, true, true, none, true, [], []⟩,
      ⟨"user_id", "bigint", .uint64, 0, false, true, true, none, false, ["owned"], []⟩,
      ⟨"item_id", "int", .int32, 11, false, false, false, none, false, ["owned"], ["item_id"]⟩]
    indexes := [
      ⟨"PRIMARY", true, true, ["id"]⟩,
      ⟨"owned", false, true, ["user_id", "item_id"]⟩,
      ⟨"item_id", false, false, ["item_id"]⟩]
    isReadOnly := false }

theorem ofCreate_userItems : Table.ofCreate userItems = .ok userItemsTable :=
  Checks.eq_ok_of_toOption (by decide +kernel)

theorem userItems_valid :
    KeysListColumns userItems ∧ Table.ofCreate userItems = .ok userItemsTable ∧
      userItemsTable.Valid ∧ userItemsTable.columns.map (·.name) = columnNames userItems ∧
      (∃ d, Dao.ofTable userItemsTable = .ok d) ∧ ∃ m, Model.ofTable userItemsTable = .ok m := by
  have hk : KeysListColumns userItems := by
    simp [KeysListColumns, userItems, ListsColumns]
  obtain ⟨hvalid, hnames, _, hdao, hmodel⟩ := ofCreate_valid hk ofCreate_userItems
  exact ⟨hk, ofCreate_userItems, hvalid, hnames, hdao, hmodel⟩

end Declaration

end Tablewright
