import Tablewright.Proofs.Schema.Accepted

/-! Which error a refused statement gets. Every check comes with the faults that it can find, and
`FirstFault` puts them in order: a fault counts if all that is looked at before it is as it should
be. An error always names what is at fault. -/

namespace Tablewright

open Sql Text Checks

namespace ColumnType

/-- The first modifier of a written type is no size: it is not blank, not quoted, and no number
below `2 ^ 64`. The members of an enumeration or a set are not meant as sizes. -/
structure Malformed (written modifier : String) : Prop where
  first : ∃ list, modifiers? (trim written.toList) = some list ∧
    modifier.toList = firstModifier list
  sized : keywordOf (trim written.toList) ≠ "enum".toList ∧
    keywordOf (trim written.toList) ≠ "set".toList
  given : modifier.toList ≠ []
  bare : modifier.toList.head? ≠ some '\x27' ∧ modifier.toList.head? ≠ some '"'
  noNumber : signedWord64? modifier.toList = none

theorem sizeOf?_eq_none {modifier : List Char} :
    sizeOf? modifier = none ↔
      modifier ≠ [] ∧ (modifier.head? ≠ some '\x27' ∧ modifier.head? ≠ some '"') ∧
        signedWord64? modifier = none := by
  cases modifier with
  | nil => simp [sizeOf?]
  | cons c rest =>
    simp only [sizeOf?, List.head?_cons, ne_eq, Option.some.injEq, Bool.or_eq_true,
      decide_eq_true_eq]
    split
    · rename_i hc
      simp only [reduceCtorEq, false_iff]
      intro h
      obtain ⟨_, ⟨hsingle, hdouble⟩, _⟩ := h
      rcases hc with hc | hc
      · exact hsingle hc
      · exact hdouble hc
    · rename_i hc
      rw [not_or] at hc
      simp [hc]

theorem declaredSize_eq_error {keyword written : List Char} {column : String} {e : SchemaError} :
    declaredSize keyword written column = .error e ↔
      ∃ list, modifiers? written = some list ∧
        (keyword ≠ "enum".toList ∧ keyword ≠ "set".toList) ∧
        sizeOf? (firstModifier list) = none ∧
        e = .invalidTypeModifier column (.ofList (firstModifier list)) := by
  unfold declaredSize
  cases modifiers? written with
  | none => simp
  | some list =>
    simp only [Option.some.injEq, exists_eq_left', Bool.or_eq_true, decide_eq_true_eq]
    split
    · rename_i hm
      simp only [reduceCtorEq, false_iff]
      intro h
      obtain ⟨⟨henum, hset⟩, _⟩ := h
      rcases hm with hm | hm
      · exact henum hm
      · exact hset hm
    · rename_i hm
      rw [not_or] at hm
      cases sizeOf? (firstModifier list) with
      | none =>
        constructor
        · intro h
          cases h
          exact ⟨hm, rfl, rfl⟩
        · intro h
          obtain ⟨_, _, rfl⟩ := h
          rfl
      | some size => simp

theorem parse_eq_error {written column : String} {e : SchemaError} :
    parse written column = .error e ↔
      ∃ modifier, Malformed written modifier ∧ e = .invalidTypeModifier column modifier := by
  unfold parse
  rw [map_eq_error, declaredSize_eq_error]
  constructor
  · intro h
    obtain ⟨list, hlist, hsized, hsize, rfl⟩ := h
    obtain ⟨hgiven, hbare, hnumber⟩ := sizeOf?_eq_none.mp hsize
    refine ⟨.ofList (firstModifier list), ?_, rfl⟩
    rw [← String.toList_ofList (l := firstModifier list)] at hgiven hbare hnumber
    exact ⟨⟨list, hlist, String.toList_ofList⟩, hsized, hgiven, hbare, hnumber⟩
  · intro h
    obtain ⟨modifier, ⟨⟨list, hlist, hfirst⟩, hsized, hgiven, hbare, hnumber⟩, rfl⟩ := h
    rw [hfirst] at hgiven hbare hnumber
    refine ⟨list, hlist, hsized, sizeOf?_eq_none.mpr ⟨hgiven, hbare, hnumber⟩, ?_⟩
    rw [← hfirst, String.ofList_toList]

end ColumnType

namespace Declaration

/-! ## Faults -/

/-- What is wrong with a column of an index. -/
inductive ColumnFault (create : CreateTable) (index : Index) (column : String) : SchemaError → Prop
  | plural (h : isPlural column = true) :
      ColumnFault create index column (.pluralColumnName (relation create) column)
  | unknown (hp : isPlural column = false) (h : column ∉ columnNames create) :
      ColumnFault create index column (.unknownIndexColumn (relation create) index.name column)

/-- What is wrong with the primary key. -/
inductive KeyFault (create : CreateTable) : SchemaError → Prop
  | missing (h : ∀ i ∈ indexes create, i.isPrimaryKey = false) :
      KeyFault create (.missingPrimaryKey (relation create))
  | multiple {i j : Index} {others : List Index}
      (h : (indexes create).filter (·.isPrimaryKey) = i :: j :: others) :
      KeyFault create (.multiplePrimaryKeys (relation create))
  | composite {i : Index} (h : (indexes create).filter (·.isPrimaryKey) = [i])
      (hc : 1 < i.columns.length) :
      KeyFault create (.compositePrimaryKey (relation create) (join ", " i.columns))

/-- What is wrong with a column, given the names of the columns before it. -/
inductive DefinitionFault (table : String) (earlier : List String) (definition : ColumnDefinition) :
    SchemaError → Prop
  | duplicate (h : definition.name.text ∈ earlier) :
      DefinitionFault table earlier definition (.duplicateColumn table definition.name.text)
  | malformed {modifier : String} (hn : definition.name.text ∉ earlier)
      (h : ColumnType.Malformed definition.type.render modifier) :
      DefinitionFault table earlier definition
        (.invalidTypeModifier definition.name.text modifier)

/-- Definitions in which nothing is wrong, after columns with the names `seen`. -/
structure Faultless (seen : List String) (definitions : List ColumnDefinition) : Prop where
  fresh : ∀ d ∈ definitions, d.name.text ∉ seen
  distinct : (definitions.map (·.name.text)).Nodup
  readable : ∀ d ∈ definitions, Readable d

/-- One of the definitions is at fault, and nothing is wrong with those before it. -/
def FaultIn (table : String) (seen : List String) (definitions : List ColumnDefinition)
    (e : SchemaError) : Prop :=
  ∃ before d after, definitions = before ++ d :: after ∧ Faultless seen before ∧
    DefinitionFault table (seen ++ before.map (·.name.text)) d e

/-- The fault that comes first: in the name, in the columns of the indexes one by one, in the
primary key, and then in the columns one by one. -/
inductive FirstFault (create : CreateTable) : SchemaError → Prop
  | name (h : isSingular (relation create) = true) :
      FirstFault create (.singularTableName (relation create))
  | indexColumn {i : Index} {c : String} {e : SchemaError}
      (hn : isSingular (relation create) = false)
      (hi : Reaches (Sound create) (indexes create) i)
      (hc : Reaches (Coverable create) i.columns c) (h : ColumnFault create i c e) :
      FirstFault create e
  | key {e : SchemaError} (hn : isSingular (relation create) = false)
      (hs : ∀ i ∈ indexes create, Sound create i) (h : KeyFault create e) : FirstFault create e
  | definition {e : SchemaError} (hn : isSingular (relation create) = false)
      (hs : ∀ i ∈ indexes create, Sound create i) (hp : SinglePrimary (indexes create))
      (h : FaultIn (relation create) [] create.columns e) : FirstFault create e

/-! ## The checks, one by one -/

theorem checkIndexColumn_eq_error {create : CreateTable} {i : Index} {c : String}
    {e : SchemaError} :
    checkIndexColumn (relation create) i.name (columnNames create) c = .error e ↔
      ColumnFault create i c e := by
  unfold checkIndexColumn
  simp only [List.contains_eq_mem, decide_eq_true_eq]
  constructor
  · intro h
    split at h
    · rename_i hp
      cases h
      exact .plural hp
    · rename_i hp
      split at h
      · cases h
      · rename_i hc
        cases h
        exact .unknown (by simpa using hp) hc
  · intro h
    cases h with
    | plural hp => rw [if_pos hp]
    | unknown hp hc => rw [if_neg (by simp [hp]), if_neg hc]

theorem checkIndexColumns_eq_error {create : CreateTable} {e : SchemaError} :
    checkIndexColumns (relation create) (columnNames create) (indexes create) = .error e ↔
      ∃ i c, Reaches (Sound create) (indexes create) i ∧
        Reaches (Coverable create) i.columns c ∧ ColumnFault create i c e := by
  unfold checkIndexColumns
  simp only [forM_eq_error, forM_eq_ok, checkIndexColumn_eq_ok, checkIndexColumn_eq_error]
  constructor
  · intro h
    obtain ⟨i, hi, c, hc, h⟩ := h
    exact ⟨i, c, hi, hc, h⟩
  · intro h
    obtain ⟨i, c, hi, hc, h⟩ := h
    exact ⟨i, hi, c, hc, h⟩

theorem checkPrimaryKey_eq_error {create : CreateTable} {e : SchemaError} :
    checkPrimaryKey (relation create) (indexes create) = .error e ↔ KeyFault create e := by
  unfold checkPrimaryKey
  constructor
  · intro h
    split at h
    · rename_i hnone
      cases h
      exact .missing (by simpa using List.filter_eq_nil_iff.mp hnone)
    · rename_i primary hone
      split at h
      · rename_i hc
        cases h
        exact .composite hone hc
      · cases h
    · rename_i i j others hmany
      cases h
      exact .multiple hmany
  · intro h
    cases h with
    | missing hnone => rw [List.filter_eq_nil_iff.mpr (by simpa using hnone)]
    | multiple hmany => rw [hmany]
    | composite hone hc =>
      rw [hone]
      exact if_pos hc

theorem faultless_cons {seen : List String} {d : ColumnDefinition}
    {before : List ColumnDefinition} :
    Faultless seen (d :: before) ↔
      d.name.text ∉ seen ∧ Readable d ∧ Faultless (d.name.text :: seen) before := by
  constructor
  · intro h
    obtain ⟨hfresh, hdistinct, hreadable⟩ := h
    rw [List.forall_mem_cons] at hfresh hreadable
    rw [List.map_cons, List.nodup_cons] at hdistinct
    refine ⟨hfresh.1, hreadable.1, ?_, hdistinct.2, hreadable.2⟩
    intro x hx hmem
    rcases List.mem_cons.mp hmem with he | hs
    · exact hdistinct.1 (he ▸ List.mem_map_of_mem hx)
    · exact hfresh.2 x hx hs
  · intro h
    obtain ⟨hd, hr, hfresh, hdistinct, hreadable⟩ := h
    refine ⟨List.forall_mem_cons.mpr ⟨hd, ?_⟩, ?_, List.forall_mem_cons.mpr ⟨hr, hreadable⟩⟩
    · intro x hx hs
      exact hfresh x hx (List.mem_cons_of_mem _ hs)
    · rw [List.map_cons, List.nodup_cons]
      refine ⟨?_, hdistinct⟩
      intro hmem
      obtain ⟨x, hx, he⟩ := List.mem_map.mp hmem
      exact hfresh x hx (he ▸ List.mem_cons_self)

theorem definitionFault_congr {table : String} {earlier earlier' : List String}
    {d : ColumnDefinition} {e : SchemaError} (hnames : ∀ n, n ∈ earlier ↔ n ∈ earlier')
    (h : DefinitionFault table earlier d e) : DefinitionFault table earlier' d e := by
  cases h with
  | duplicate hd => exact .duplicate ((hnames _).mp hd)
  | malformed hn hm => exact .malformed (mt (hnames _).mpr hn) hm

/-- The fault of a definition that is looked at by itself. -/
theorem definitionFault_iff {table : String} {earlier : List String} {d : ColumnDefinition}
    {e : SchemaError} (owning : List Index) :
    DefinitionFault table earlier d e ↔
      d.name.text ∈ earlier ∧ e = .duplicateColumn table d.name.text ∨
        d.name.text ∉ earlier ∧ column d owning = .error e := by
  unfold column
  rw [map_eq_error, ColumnType.parse_eq_error]
  constructor
  · intro h
    cases h with
    | duplicate hd => exact .inl ⟨hd, rfl⟩
    | malformed hn hm => exact .inr ⟨hn, _, hm, rfl⟩
  · intro h
    rcases h with ⟨hd, rfl⟩ | ⟨hn, _, hm, rfl⟩
    · exact .duplicate hd
    · exact .malformed hn hm

/-- The first definition is at fault, or nothing is wrong with it and a later one is. -/
theorem faultIn_cons {table : String} {seen : List String} {d : ColumnDefinition}
    {rest : List ColumnDefinition} {e : SchemaError} :
    FaultIn table seen (d :: rest) e ↔
      DefinitionFault table seen d e ∨
        d.name.text ∉ seen ∧ Readable d ∧ FaultIn table (d.name.text :: seen) rest e := by
  -- it does not matter for a fault on which side of `seen` the name of `d` stands
  have reorder : ∀ (before : List ColumnDefinition) (n : String),
      n ∈ seen ++ (d :: before).map (·.name.text) ↔
        n ∈ d.name.text :: seen ++ before.map (·.name.text) := by
    intro before n
    simp only [List.map_cons, List.mem_append, List.mem_cons]
    tauto
  unfold FaultIn
  constructor
  · intro h
    obtain ⟨before, x, after, heq, hb, h⟩ := h
    cases before with
    | nil =>
      cases heq
      exact .inl (by simpa using h)
    | cons y before =>
      cases heq
      obtain ⟨hd, hr, hb⟩ := faultless_cons.mp hb
      exact .inr ⟨hd, hr, before, x, after, rfl, hb, definitionFault_congr (reorder before) h⟩
  · intro h
    rcases h with h | ⟨hd, hr, before, x, after, rfl, hb, h⟩
    · exact ⟨[], d, rest, rfl, ⟨by simp, by simp, by simp⟩, by simpa using h⟩
    · exact ⟨d :: before, x, after, rfl, faultless_cons.mpr ⟨hd, hr, hb⟩,
        definitionFault_congr (fun n => (reorder before n).symm) h⟩

/-- The names in `seen` are those of the columns already read. -/
theorem columns_eq_error {table : String} {indexes : List Index} {seen : List String}
    {definitions : List ColumnDefinition} {e : SchemaError} :
    columns table indexes seen definitions = .error e ↔ FaultIn table seen definitions e := by
  induction definitions generalizing seen with
  | nil => simp [columns, FaultIn]
  | cons d rest ih =>
    rw [faultIn_cons, ← ih, definitionFault_iff (owners indexes d.name.text),
      readable_iff_exists_column (owners indexes d.name.text), columns_cons]
    by_cases hd : d.name.text ∈ seen
    · rw [if_pos hd]
      simp only [hd, true_and, not_true_eq_false, false_and, or_false, Except.error.injEq]
      exact eq_comm
    · rw [if_neg hd, bind_eq_error]
      simp only [hd, false_and, not_false_eq_true, true_and, false_or, bind_eq_error,
        reduceCtorEq, and_false, exists_false, or_false, exists_and_right]

/-! ## The checks together -/

/-- A statement is accepted exactly if it keeps the rules, and refused with its first fault. -/
theorem ofCreate_refuses_firstFault (create : CreateTable) :
    ((∃ t, Table.ofCreate create = .ok t) ↔ Keeps create) ∧
      ∀ e, Table.ofCreate create = .error e ↔ FirstFault create e := by
  refine ⟨exists_ofCreate_iff_keeps create, ?_⟩
  intro e
  rw [ofCreate_eq]
  split
  · rename_i hs
    constructor
    · intro h
      cases h
      exact .name hs
    · intro h
      cases h with
      | name _ => rfl
      | indexColumn hn | key hn | definition hn =>
        rw [hs] at hn
        cases hn
  · rename_i hn
    simp only [Bool.not_eq_true] at hn
    rw [check_bind_eq_error, check_bind_eq_error, bind_eq_error, checkIndexColumns_eq_ok,
      checkIndexColumns_eq_error, checkPrimaryKey_eq_ok, checkPrimaryKey_eq_error,
      columns_eq_error]
    simp only [reduceCtorEq, and_false, exists_false, or_false]
    constructor
    · intro h
      rcases h with ⟨i, c, hi, hc, h⟩ | ⟨hs, h | ⟨hp, h⟩⟩
      · exact .indexColumn hn hi hc h
      · exact .key hn hs h
      · exact .definition hn hs hp h
    · intro h
      cases h with
      | name hs =>
        rw [hn] at hs
        cases hs
      | indexColumn _ hi hc h => exact .inl ⟨_, _, hi, hc, h⟩
      | key _ hs h => exact .inr ⟨hs, .inl h⟩
      | definition _ hs hp h => exact .inr ⟨hs, .inr ⟨hp, h⟩⟩

end Declaration

end Tablewright
