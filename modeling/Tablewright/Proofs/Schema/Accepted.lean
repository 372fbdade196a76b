import Mathlib.Data.List.Forall2
import Tablewright.Proofs.Checks
import Tablewright.Schema.Declaration

/-! What the checks of a declaration accept. Each check is matched with the rule that it enforces,
and the checks together accept a statement exactly if it keeps the rules, `Keeps`. The table is then
the one that the statement declares, `Declares`. -/

namespace Tablewright.Declaration

open Sql Checks

/-! ## The rules -/

/-- An index may cover the column. -/
def Coverable (create : CreateTable) (column : String) : Prop :=
  isPlural column = false ∧ column ∈ columnNames create

def Sound (create : CreateTable) (index : Index) : Prop :=
  ∀ c ∈ index.columns, Coverable create c

/-- One index is the primary key, and it covers at most one column. -/
def SinglePrimary (indexes : List Index) : Prop :=
  ∃ primary, indexes.filter (·.isPrimaryKey) = [primary] ∧ primary.columns.length ≤ 1

/-- The written type of the column can be read. -/
def Readable (definition : ColumnDefinition) : Prop :=
  ∃ type, ColumnType.parse definition.type.render definition.name.text = .ok type

/-- The rules for a statement. -/
structure Keeps (create : CreateTable) : Prop where
  named : isSingular (relation create) = false
  sound : ∀ i ∈ indexes create, Sound create i
  primary : SinglePrimary (indexes create)
  distinct : (columnNames create).Nodup
  readable : ∀ d ∈ create.columns, Readable d

/-- The column that a definition declares in a table with the given indexes. -/
def IsColumn (indexes : List Index) (definition : ColumnDefinition) (c : Column) : Prop :=
  column definition (owners indexes definition.name.text) = .ok c

/-- The table that a statement declares. -/
structure Declares (create : CreateTable) (t : Table) : Prop where
  name : t.name = relation create
  columns : List.Forall₂ (IsColumn (indexes create)) create.columns t.columns
  indexes : t.indexes = indexes create
  flag : t.isReadOnly = isReadOnlyTable t.name

def declared (create : CreateTable) (cs : List Column) : Table :=
  ⟨relation create, cs, indexes create, isReadOnlyTable (relation create)⟩

theorem declares_declared {create : CreateTable} {cs : List Column}
    (h : List.Forall₂ (IsColumn (indexes create)) create.columns cs) :
    Declares create (declared create cs) :=
  { name := rfl, columns := h, indexes := rfl, flag := rfl }

theorem Declares.eq_declared {create : CreateTable} {t : Table} (h : Declares create t) :
    t = declared create t.columns := by
  have hflag := h.flag
  rw [h.name] at hflag
  cases t
  simp only [declared, Table.mk.injEq, true_and]
  exact ⟨h.name, h.indexes, hflag⟩

/-! ## The checks, one by one -/

theorem checkIndexColumn_eq_ok {create : CreateTable} {table index column : String} :
    checkIndexColumn table index (columnNames create) column = .ok () ↔
      Coverable create column := by
  unfold checkIndexColumn Coverable
  split
  · simp [*]
  · split <;> simp_all

theorem checkIndexColumns_eq_ok {create : CreateTable} {table : String} {indexes : List Index} :
    checkIndexColumns table (columnNames create) indexes = .ok () ↔
      ∀ i ∈ indexes, Sound create i := by
  unfold checkIndexColumns Sound
  simp only [forM_eq_ok, checkIndexColumn_eq_ok]

theorem checkPrimaryKey_eq_ok {table : String} {indexes : List Index} :
    checkPrimaryKey table indexes = .ok () ↔ SinglePrimary indexes := by
  unfold checkPrimaryKey SinglePrimary
  split
  · simp [*]
  · rename_i primary h
    split <;> simp [h] <;> omega
  · simp [*]

theorem readable_iff_exists_column {definition : ColumnDefinition} (owning : List Index) :
    Readable definition ↔ ∃ c, column definition owning = .ok c := by
  unfold Readable column
  simp only [map_eq_ok]
  constructor
  · intro h
    obtain ⟨type, h⟩ := h
    exact ⟨_, type, h, rfl⟩
  · intro h
    obtain ⟨_, type, h, _⟩ := h
    exact ⟨type, h⟩

theorem readable_of_isColumn {indexes : List Index} {definitions : List ColumnDefinition}
    {cs : List Column} (h : List.Forall₂ (IsColumn indexes) definitions cs) :
    ∀ d ∈ definitions, Readable d := by
  intro d hd
  obtain ⟨c, _, hc⟩ := exists_of_forall₂ (R := flip (IsColumn indexes)) h.flip d hd
  exact (readable_iff_exists_column _).mpr ⟨c, hc⟩

theorem columns_cons (table : String) (indexes : List Index) (seen : List String)
    (d : ColumnDefinition) (rest : List ColumnDefinition) :
    columns table indexes seen (d :: rest) =
      if d.name.text ∈ seen then .error (.duplicateColumn table d.name.text)
      else
        column d (owners indexes d.name.text) >>= fun c =>
        columns table indexes (d.name.text :: seen) rest >>= fun cs => .ok (c :: cs) := by
  rw [columns]
  simp only [List.contains_eq_mem, decide_eq_true_eq]
  rfl

theorem columns_eq_ok {table : String} {indexes : List Index} {seen : List String}
    {definitions : List ColumnDefinition} {cs : List Column} :
    columns table indexes seen definitions = .ok cs ↔
      (∀ d ∈ definitions, d.name.text ∉ seen) ∧ (definitions.map (·.name.text)).Nodup ∧
        List.Forall₂ (IsColumn indexes) definitions cs := by
  induction definitions generalizing seen cs with
  | nil => simp [columns, eq_comm]
  | cons d rest ih =>
    rw [columns_cons, List.forall_mem_cons, List.map_cons, List.nodup_cons,
      List.forall₂_cons_left_iff]
    split
    · rename_i hs
      simp [hs]
    · rename_i hs
      simp only [bind_eq_ok, ih, List.mem_cons, not_or, List.mem_map, Except.ok.injEq]
      constructor
      · intro h
        obtain ⟨c, hc, cs', ⟨hseen, hn, hcs⟩, rfl⟩ := h
        refine ⟨⟨hs, fun x hx => (hseen x hx).2⟩, ⟨?_, hn⟩, c, cs', hc, hcs, rfl⟩
        intro h
        obtain ⟨x, hx, he⟩ := h
        exact (hseen x hx).1 he
      · intro h
        obtain ⟨⟨_, hseen⟩, ⟨hd, hn⟩, c, cs', hc, hcs, rfl⟩ := h
        exact ⟨c, hc, cs', ⟨fun x hx => ⟨fun he => hd ⟨x, hx, he⟩, hseen x hx⟩, hn, hcs⟩, rfl⟩

theorem exists_columns (indexes : List Index) {definitions : List ColumnDefinition}
    (h : ∀ d ∈ definitions, Readable d) :
    ∃ cs, List.Forall₂ (IsColumn indexes) definitions cs :=
  exists_forall₂ fun d hd => (readable_iff_exists_column (owners indexes d.name.text)).mp (h d hd)

/-! ## The checks together -/

/-- The checks in their order. -/
theorem ofCreate_eq (create : CreateTable) :
    Table.ofCreate create =
      if isSingular (relation create) then .error (.singularTableName (relation create))
      else
        checkIndexColumns (relation create) (columnNames create) (indexes create) >>= fun _ =>
        checkPrimaryKey (relation create) (indexes create) >>= fun _ =>
        columns (relation create) (indexes create) [] create.columns >>= fun cs =>
        .ok (declared create cs) := by
  unfold Table.ofCreate
  dsimp only
  split <;> rfl

/-- A statement is accepted if it keeps the rules, and gives the table that it declares. -/
theorem ofCreate_eq_ok {create : CreateTable} {t : Table} :
    Table.ofCreate create = .ok t ↔ Keeps create ∧ Declares create t := by
  rw [ofCreate_eq]
  split
  · rename_i hs
    constructor
    · intro h
      cases h
    · intro h
      obtain ⟨hk, _⟩ := h
      rw [hk.named] at hs
      cases hs
  · rename_i hs
    rw [check_bind_eq_ok, check_bind_eq_ok, checkIndexColumns_eq_ok, checkPrimaryKey_eq_ok,
      bind_eq_ok]
    simp only [columns_eq_ok, List.not_mem_nil, not_false_eq_true, implies_true, true_and,
      Except.ok.injEq]
    constructor
    · intro h
      obtain ⟨hsound, hprimary, cs, ⟨hn, hcs⟩, rfl⟩ := h
      refine ⟨⟨by simpa using hs, hsound, hprimary, hn, ?_⟩, declares_declared hcs⟩
      exact readable_of_isColumn hcs
    · intro h
      obtain ⟨hk, hd⟩ := h
      exact ⟨hk.sound, hk.primary, t.columns, ⟨hk.distinct, hd.columns⟩, hd.eq_declared.symm⟩

theorem exists_ofCreate_iff_keeps (create : CreateTable) :
    (∃ t, Table.ofCreate create = .ok t) ↔ Keeps create := by
  simp only [ofCreate_eq_ok]
  constructor
  · intro h
    obtain ⟨t, hk, _⟩ := h
    exact hk
  · intro hk
    obtain ⟨cs, hcs⟩ := exists_columns (indexes create) hk.readable
    exact ⟨declared create cs, hk, declares_declared hcs⟩

end Tablewright.Declaration
