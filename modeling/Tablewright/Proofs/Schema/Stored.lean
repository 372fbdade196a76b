import Tablewright.Project.Load
import Tablewright.Proofs.Checks
import Tablewright.Proofs.Yaml.Document

/-! A stored schema is loaded as it was, and a stored flag that contradicts the name of its table is
reported. No string of the schema may have a line feed. -/

namespace Tablewright

open Yaml

/-! ### Fields of nodes -/

namespace Value

theorem fields?_entries (fs : List (String × Value)) :
    Node.fields? (.mapping (entries fs)) = some (fs.map fun f => (f.1, f.2.node)) := by
  induction fs with
  | nil => rfl
  | cons f fs ih =>
    rw [Node.fields?] at ih
    rw [Node.fields?, entries, List.mapM_cons, ih]
    rfl

theorem length_filter_le_one {α : Type} {fs : List (String × α)} (h : (fs.map (·.1)).Nodup)
    (name : String) : (fs.filter (·.1 == name)).length ≤ 1 := by
  induction fs with
  | nil => simp
  | cons f fs ih =>
    obtain ⟨hf, hfs⟩ := List.nodup_cons.mp h
    by_cases hname : f.1 = name
    · have hrest : fs.filter (·.1 == name) = [] := by
        rw [List.filter_eq_nil_iff]
        intro g hg heq
        exact hf (List.mem_map.mpr ⟨g, hg, (beq_iff_eq.mp heq).trans hname.symm⟩)
      simp [hname, hrest]
    · simpa [hname] using ih hfs

/-- A record whose names differ is read field by field. -/
theorem record?_node {fs : List (String × Value)} (h : (fs.map (·.1)).Nodup) (known : List String) :
    (Value.record fs).node.record? known = some (fs.map fun f => (f.1, f.2.node)) := by
  have hnames : ((fs.map fun f => (f.1, f.2.node)).map (·.1)).Nodup := by
    rwa [List.map_map]
  have hknown : (known.all fun name =>
      ((fs.map fun f => (f.1, f.2.node)).filter (·.1 == name)).length ≤ 1) = true := by
    rw [List.all_eq_true]
    exact fun name _ => decide_eq_true (length_filter_le_one hnames name)
  rw [node, Node.record?, fields?_entries]
  simp only [Option.bind_eq_bind, Option.bind_some, hknown]
  rfl

theorem list?_node {α : Type} {item? : Node → Option α} {write : α → Value} {xs : List α}
    (h : ∀ x ∈ xs, item? (write x).node = some x) :
    (Value.list (xs.map write)).node.list? item? = some xs := by
  have hitems : xs.mapM (item? ∘ node ∘ write) = some (xs.map id) := Checks.mapM_eq_some h
  rw [node, nodes_eq_map, Node.list?, Node.items?, Option.bind_eq_bind, Option.bind_some,
    List.map_map, List.mapM_map, hitems, List.map_id]

@[simp] theorem text?_node (s : String) : (Value.text s).node.text? = some s := rfl

@[simp] theorem texts_node (xs : List String) : (Value.texts xs).node.list? Node.text? = some xs :=
  list?_node fun _ _ => rfl

@[simp] theorem flag?_node (b : Bool) : (Value.flag b).node.flag? = some b := by
  cases b with
  | true => rfl
  | false => rfl

@[simp] theorem word64?_node (n : UInt64) : (Value.number n.toNat).node.word64? = some n := by
  rw [node, Node.word64?, Plain.natural?_toString]
  simp [n.toNat_lt_size]

@[simp] theorem entityType?_node (t : EntityType) : (Value.text t.name).node.entityType? = some t :=
  EntityType.ofName?_name t

/-- An absent string and an empty one are told apart by their quotes. -/
theorem optionalText?_node {o : Option String} (h : ∀ s ∈ o, '\n' ∉ s.toList) :
    (Value.optionalText o).node.optionalText? = some o := by
  cases o with
  | none => rfl
  | some s =>
    rcases Reads.style_cases (h s rfl) with ⟨hstyle, hother, _⟩ | ⟨hstyle, _⟩ | hstyle
    · have hnull : Plain.isNull s = false := by
        simp only [Plain.standsForOther, Bool.or_eq_false_iff] at hother
        exact hother.1.1.1.1
      simp [optionalText, node, hstyle, Node.optionalText?, hnull]
    · simp [optionalText, node, hstyle, Node.optionalText?]
    · simp [optionalText, node, hstyle, Node.optionalText?]

theorem Storable.texts {xs : List String} (h : ∀ s ∈ xs, '\n' ∉ s.toList) :
    Storable (Value.texts xs) := by
  refine .list fun v hv => ?_
  obtain ⟨s, hs, rfl⟩ := List.mem_map.mp hv
  exact .text (h s hs)

theorem Storable.optionalText {o : Option String} (h : ∀ s ∈ o, '\n' ∉ s.toList) :
    Storable (Value.optionalText o) := by
  cases o with
  | none => exact .null
  | some s => exact .text (h s rfl)

instance : DecidablePred IsKey := fun key =>
  decidable_of_iff (key.toList ≠ [] ∧ key.toList.all isWordChar = true ∧
      key.toList.length ≤ Reading.maxKeyWidth)
    ⟨fun ⟨hne, hword, hshort⟩ => ⟨hne, List.all_eq_true.mp hword, hshort⟩,
      fun h => ⟨h.ne_nil, List.all_eq_true.mpr h.word, h.short⟩⟩

end Value

/-! ### Tables -/

namespace Column

/-- The strings that are stored of a column. -/
def strings (c : Column) : List String :=
  c.name :: c.columnType :: (c.defaultValue.toList ++ c.uniqueIndexKeys ++ c.indexKeys)

theorem column?_value {c : Column} (h : ∀ s ∈ c.strings, '\n' ∉ s.toList) :
    c.value.node.column? = some c := by
  have hdefault : (Value.optionalText c.defaultValue).node.optionalText? = some c.defaultValue :=
    Value.optionalText?_node fun s hs => h s (by simp [strings, Option.mem_def.mp hs])
  rw [value, Node.column?, Value.record?_node (by simp)]
  simp [Node.field?, Node.fieldOr?, List.lookup_cons, hdefault]

theorem storable_value {c : Column} (h : ∀ s ∈ c.strings, '\n' ∉ s.toList) :
    c.value.Storable := by
  simp only [strings, List.mem_cons, List.mem_append, Option.mem_toList] at h
  have hentity : '\n' ∉ c.entityType.name.toList := by
    cases c.entityType <;> decide
  refine .record (by simp) (by simp only [List.forall_mem_cons]; decide) ?_
  simp only [List.forall_mem_cons]
  refine ⟨.text (h _ (.inl rfl)), .text (h _ (.inr (.inl rfl))), .text hentity, .number _, .flag _,
    .flag _, .flag _, .optionalText fun s hs => h s (by simp_all), .flag _,
    .texts fun s hs => h s (by simp_all), .texts fun s hs => h s (by simp_all), by simp⟩

end Column

namespace Index

/-- The strings that are stored of an index. -/
def strings (i : Index) : List String := i.name :: i.columns

theorem index?_value (i : Index) : i.value.node.index? = some i := by
  rw [value, Node.index?, Value.record?_node (by simp)]
  simp [Node.field?, List.lookup_cons]

theorem storable_value {i : Index} (h : ∀ s ∈ i.strings, '\n' ∉ s.toList) : i.value.Storable := by
  simp only [strings, List.forall_mem_cons] at h
  refine .record (by simp) (by simp only [List.forall_mem_cons]; decide) ?_
  simp only [List.forall_mem_cons]
  exact ⟨.text h.1, .flag _, .flag _, .texts h.2, by simp⟩

end Index

namespace Table

/-- The strings that are stored of a table. -/
def strings (t : Table) : List String :=
  t.name :: (t.columns.flatMap Column.strings ++ t.indexes.flatMap Index.strings)

theorem table?_value {t : Table} (h : ∀ s ∈ t.strings, '\n' ∉ s.toList) :
    t.value.node.table? = some t := by
  have hcolumns :
      (Value.list (t.columns.map Column.value)).node.list? Node.column? = some t.columns := by
    refine Value.list?_node fun c hc => Column.column?_value fun s hs => h s ?_
    have hmem : s ∈ t.columns.flatMap Column.strings := List.mem_flatMap.mpr ⟨c, hc, hs⟩
    simp [strings, hmem]
  have hindexes :
      (Value.list (t.indexes.map Index.value)).node.list? Node.index? = some t.indexes :=
    Value.list?_node fun i _ => Index.index?_value i
  rw [value, Node.table?, Value.record?_node (by simp)]
  simp [Node.field?, List.lookup_cons, hcolumns, hindexes]

theorem storable_value {t : Table} (h : ∀ s ∈ t.strings, '\n' ∉ s.toList) : t.value.Storable := by
  simp only [strings, List.forall_mem_cons, List.forall_mem_append, List.forall_mem_flatMap] at h
  have hcolumns : ∀ v ∈ t.columns.map Column.value, v.Storable := by
    intro v hv
    obtain ⟨c, hc, rfl⟩ := List.mem_map.mp hv
    exact Column.storable_value (h.2.1 c hc)
  have hindexes : ∀ v ∈ t.indexes.map Index.value, v.Storable := by
    intro v hv
    obtain ⟨i, hi, rfl⟩ := List.mem_map.mp hv
    exact Index.storable_value (h.2.2 i hi)
  refine .record (by simp) (by simp only [List.forall_mem_cons]; decide) ?_
  simp only [List.forall_mem_cons]
  exact ⟨.text h.1, .list hcolumns, .list hindexes, .flag _, by simp⟩

/-- Whether the stored flag says what the name of the table does. -/
def FlagAgrees (t : Table) : Prop := t.isReadOnly = t.convention.isReadOnly

instance : DecidablePred FlagAgrees := fun _ => inferInstanceAs (Decidable (_ = _))

end Table

/-! ### Schemas -/

namespace Tables

open Checks

theorem checkFlag_eq_ok {t : Table} {e : SchemaError} :
    (if t.isReadOnly = t.convention.isReadOnly then Except.ok () else .error e) = .ok () ↔
      t.FlagAgrees := by
  rw [Table.FlagAgrees]
  split
  · next h => simp [h]
  · next h => simp [h]

theorem checkFlags_eq_ok {ts : Tables} :
    ts.checkFlags = .ok () ↔ ∀ t ∈ ts.toList, t.FlagAgrees := by
  rw [checkFlags, forM_eq_ok]
  simp only [checkFlag_eq_ok]

/-- The first flag that contradicts a name is the error. -/
theorem checkFlags_eq_error {ts : Tables} {e : SchemaError} :
    ts.checkFlags = .error e ↔ ∃ t, Reaches Table.FlagAgrees ts.toList t ∧ ¬ t.FlagAgrees ∧
      e = .staleReadOnlyFlag t.name t.isReadOnly t.convention.isReadOnly := by
  rw [checkFlags, forM_eq_error]
  simp only [checkFlag_eq_ok]
  refine exists_congr fun t => and_congr_right fun _ => ?_
  rw [Table.FlagAgrees]
  split
  · next h => simp [h]
  · next h => simp [h, eq_comm]

/-- The text of stored tables holds these tables, whatever their flags. -/
theorem parseYaml?_toYaml {ts : Tables} (h : ∀ t ∈ ts.toList, ∀ s ∈ t.strings, '\n' ∉ s.toList) :
    parseYaml? ts.toYaml = some ts := by
  have hstorable : ∀ v ∈ ts.toList.map Table.value, v.Storable := by
    intro v hv
    obtain ⟨t, ht, rfl⟩ := List.mem_map.mp hv
    exact Table.storable_value (h t ht)
  have htables : (Value.list (ts.toList.map Table.value)).node.list? Node.table? = some ts.toList :=
    Value.list?_node fun t ht => Table.table?_value (h t ht)
  rw [Value.node] at htables
  rw [parseYaml?, toYaml, Value.ofText?_yamlList hstorable]
  simp [htables]

theorem ofYaml_eq {ts : Tables} {text : String} (h : parseYaml? text = some ts) :
    ofYaml text = (ts.checkFlags.map fun () => ts).mapError .schema := by
  rw [ofYaml, h]

/-- Tables are stored and loaded again as they were, and the first whose flag contradicts its name
is reported. -/
theorem ofYaml_toYaml (ts : Tables) (h : ∀ t ∈ ts.toList, ∀ s ∈ t.strings, '\n' ∉ s.toList) :
    ((∀ t ∈ ts.toList, t.FlagAgrees) → ofYaml ts.toYaml = .ok ts) ∧
      ((∃ t ∈ ts.toList, ¬ t.FlagAgrees) →
        ∃ t, Reaches Table.FlagAgrees ts.toList t ∧ ¬ t.FlagAgrees ∧
          ofYaml ts.toYaml = .error (.schema
            (.staleReadOnlyFlag t.name t.isReadOnly t.convention.isReadOnly))) := by
  rw [ofYaml_eq (parseYaml?_toYaml h)]
  constructor
  · intro hflags
    rw [checkFlags_eq_ok.mpr hflags]
    rfl
  · intro ⟨u, hu, hflag⟩
    cases hcheck : ts.checkFlags with
    | ok a => exact absurd (checkFlags_eq_ok.mp hcheck u hu) hflag
    | error e =>
      obtain ⟨t, hreach, ht, rfl⟩ := checkFlags_eq_error.mp hcheck
      exact ⟨t, hreach, ht, rfl⟩

/-- Strings that plain text would make a flag, a number, nothing, a comment or a record, or that
begin with a mark. -/
def lookalikes (isReadOnly : Bool) : Tables := ⟨[
  ⟨"null",
    [⟨"true", "~", .uint64, 18446744073709551615, false, true, true, some "", false,
      ["12", "1e3", "- a"], ["a: b", "a #b", "it's \"so\"", "*", " a ", "---"]⟩,
      ⟨"0x1f", "", .string, 0, false, false, false, none, false, [], []⟩],
    [⟨"\t\\", true, true, ["@", "?", "[]", ".nan", "\u2028 a", "\x07"]⟩], true⟩,
  ⟨"users", [], [], isReadOnly⟩]⟩

theorem ofYaml_toYaml_lookalikes :
    (∀ b, ∀ t ∈ (lookalikes b).toList, ∀ s ∈ t.strings, '\n' ∉ s.toList) ∧
      (∀ t ∈ (lookalikes false).toList, t.FlagAgrees) ∧
      ofYaml (lookalikes false).toYaml = .ok (lookalikes false) ∧
      (∃ t ∈ (lookalikes true).toList, ¬ t.FlagAgrees) ∧
      ofYaml (lookalikes true).toYaml =
        .error (.schema (.staleReadOnlyFlag "users" true false)) := by
  have hstrings : ∀ b, ∀ t ∈ (lookalikes b).toList, ∀ s ∈ t.strings, '\n' ∉ s.toList := by decide
  have hagree : ∀ t ∈ (lookalikes false).toList, t.FlagAgrees := by decide
  have hstale : ∃ t ∈ (lookalikes true).toList, ¬ t.FlagAgrees := by decide
  refine ⟨hstrings, hagree, (ofYaml_toYaml _ (hstrings false)).1 hagree, hstale, ?_⟩
  obtain ⟨t, ⟨before, after, hlist, _⟩, ht, herror⟩ := (ofYaml_toYaml _ (hstrings true)).2 hstale
  have hmem : t ∈ (lookalikes true).toList := by rw [hlist]; simp
  have honly : ∀ u ∈ (lookalikes true).toList, ¬ u.FlagAgrees → u = ⟨"users", [], [], true⟩ := by
    decide
  rw [herror, honly t hmem ht]
  rfl

end Tables

end Tablewright
