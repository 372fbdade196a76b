import Mathlib.Data.List.Perm.Basic
import Tablewright.Entity.Source
import Tablewright.Model.Source
import Tablewright.Proofs.Dao.Methods
import Tablewright.Proofs.Model.Comparisons
import Tablewright.Proofs.Names.Fields

/-! The names that one generated type gives to its members. The lookups of a data access are kept
apart by name, but the fields of a record and the helpers of a collection are named after the
columns without a look at each other: distinct columns can have one field, and a pluck can have the
name of another method. -/

namespace Tablewright

open Code

/-- The names that an item adds to a type: the fields of a record, or a method. -/
def Code.Item.memberNames : Item → List String
  | .struct _ fields => fields.filterMap (·.name)
  | .func f => f.receiver.toList.map fun _ => f.signature.name
  | _ => []

/-! ## Records -/

namespace Entity

variable (e : Entity) (t : Target)

/-- The record of an entity and its methods. -/
def recordItems : List Item :=
  [e.structItem] ++ (if e.isReadOnly then [] else [e.encodeItem t]) ++
    [e.decodeItem t, e.schemaItem t]

def methodNames : List String :=
  (if e.isReadOnly then [] else ["EncodeRapidash"]) ++ ["DecodeRapidash", "Struct"]

theorem memberNames_structItem : e.structItem.memberNames = e.fields.map (·.name) := by
  simp [structItem, Item.memberNames, List.filterMap_map]

theorem memberNames_recordItems :
    (e.recordItems t).flatMap Item.memberNames = e.fields.map (·.name) ++ e.methodNames := by
  unfold recordItems methodNames
  rw [List.append_assoc, List.flatMap_append, List.flatMap_singleton, memberNames_structItem]
  cases e.isReadOnly <;> rfl

theorem nodup_methodNames : e.methodNames.Nodup := by
  unfold methodNames
  cases e.isReadOnly <;> decide

/-- The members of a record are apart if its fields are, and none of them is named as a method. -/
theorem nodup_memberNames_iff : ((e.recordItems t).flatMap Item.memberNames).Nodup ↔
    (e.fields.map (·.name)).Nodup ∧ ∀ name ∈ e.fields.map (·.name), name ∉ e.methodNames := by
  rw [memberNames_recordItems, List.nodup_append']
  constructor
  · rintro ⟨hfields, _, hdisjoint⟩
    exact ⟨hfields, fun _ => @hdisjoint _⟩
  · rintro ⟨hfields, hapart⟩
    exact ⟨hfields, e.nodup_methodNames, fun name => hapart name⟩

end Entity

/-! ## Collections -/

namespace Model

variable {m : Model} {tb : Table}

/-- The members of a collection that are there for every table. -/
def fixedNames (m : Model) : List String :=
  ["values", "Add", "FindBy" ++ m.primaryKey.field, "FilterBy", "Each", "EachWithError", "First",
    "At", "Len", "IsEmpty"] ++ (if m.isReadOnly then [] else ["Save"])

/-- The fields of the columns that can be filtered and sorted. -/
def comparedFields (m : Model) : List String := (m.columns.filter (·.filterable)).map (·.field)

/-- Every member but the plucks. -/
def namesBesidePlucks (m : Model) : List String :=
  m.fixedNames ++ m.comparedFields.map ("FilterBy" ++ ·) ++ m.comparedFields.map ("SortBy" ++ ·)

/-- What keeps the members of a collection apart. -/
structure MembersApart (m : Model) : Prop where
  fields : m.comparedFields.Nodup
  /-- The filter of a column without a field would be the general filter. -/
  named : "" ∉ m.comparedFields
  plucks : (m.columns.map (·.pluralField)).Nodup
  apart : ∀ c ∈ m.columns, c.pluralField ∉ m.namesBesidePlucks

theorem memberNames_columnItems (c : ModelColumn) :
    (m.columnItems c).flatMap Item.memberNames = c.methodNames := by
  unfold columnItems ModelColumn.methodNames
  rw [List.flatMap_append, List.flatMap_append]
  cases c.filterable <;> cases c.sort <;> rfl

theorem memberNames_collectionItems (t : Target) :
    (m.collectionItems t).flatMap Item.memberNames = "values" :: m.collectionMethodNames := by
  have hcolumns : (m.columns.flatMap m.columnItems).flatMap Item.memberNames =
      m.columns.flatMap (·.methodNames) := by
    rw [List.flatMap_assoc]
    simp only [memberNames_columnItems]
  unfold collectionItems collectionMethodNames
  rw [List.flatMap_append, List.flatMap_append, List.flatMap_append, hcolumns]
  cases m.isReadOnly <;> rfl

/-- A column can be sorted exactly if it can be filtered. -/
theorem isSome_sort (hm : ofTable tb = .ok m) {c : ModelColumn} (hc : c ∈ m.columns) :
    c.sort.isSome = c.filterable := by
  obtain ⟨_, _, _, hcolumns⟩ := exists_primaryKey hm
  rw [hcolumns] at hc
  obtain ⟨column, _, rfl⟩ := List.mem_map.mp hc
  show column.entityType.sortOrder?.isSome = column.entityType.isComparable
  cases column.entityType <;> rfl

theorem flatMap_if_singleton {α β : Type} (p : α → Bool) (f : α → β) (xs : List α) :
    (xs.flatMap fun x => if p x then [f x] else []) = (xs.filter p).map f := by
  induction xs with
  | nil => rfl
  | cons x xs ih => cases h : p x <;> simp [h, ih]

/-- The helpers of all columns, sorted by what they do. -/
theorem methodNames_perm (hm : ofTable tb = .ok m) :
    (m.columns.flatMap (·.methodNames)).Perm
      (m.comparedFields.map ("FilterBy" ++ ·) ++ m.comparedFields.map ("SortBy" ++ ·) ++
        m.columns.map (·.pluralField)) := by
  have hfilters : (m.columns.flatMap fun c => if c.filterable then [c.filterName] else []) =
      m.comparedFields.map ("FilterBy" ++ ·) := by
    rw [flatMap_if_singleton, comparedFields, List.map_map]
    rfl
  have hsorts : (m.columns.flatMap fun c => if c.sort.isSome then [c.sortName] else []) =
      m.comparedFields.map ("SortBy" ++ ·) := by
    rw [flatMap_if_singleton, List.filter_congr fun c hc => isSome_sort hm hc, comparedFields,
      List.map_map]
    rfl
  have hplucks : (m.columns.flatMap fun c => [c.pluralField]) = m.columns.map (·.pluralField) :=
    List.map_eq_flatMap.symm
  rw [← hfilters, ← hsorts, ← hplucks]
  exact ((List.flatMap_append_perm ..).append_right _).trans (List.flatMap_append_perm ..) |>.symm

theorem memberNames_perm (hm : ofTable tb = .ok m) :
    ("values" :: m.collectionMethodNames).Perm
      (m.namesBesidePlucks ++ m.columns.map (·.pluralField)) := by
  unfold collectionMethodNames namesBesidePlucks fixedNames
  rw [← List.cons_append, ← List.cons_append, List.append_assoc]
  -- The method that saves comes after the helpers, but belongs to the fixed members.
  refine (List.Perm.append_left _ List.perm_append_comm).trans ?_
  refine (((methodNames_perm hm).append_left _).append_left _).trans ?_
  simp only [List.append_assoc, List.Perm.refl]

/-! ### Names with a common beginning -/

theorem mem_iff_toList_mem {name : String} {names : List String} :
    name ∈ names ↔ name.toList ∈ names.map String.toList :=
  (List.mem_map_of_injective fun _ _ => String.toList_inj.mp).symm

theorem nodup_fixedNames : m.fixedNames.Nodup := by
  refine .of_map String.toList ?_
  unfold fixedNames
  cases m.isReadOnly <;> simp

/-- The filter of a column is named as another member only if the column has no field. -/
theorem filterBy_mem_fixedNames {field : String} :
    "FilterBy" ++ field ∈ m.fixedNames ↔ field = "" := by
  rw [mem_iff_toList_mem]
  unfold fixedNames
  cases m.isReadOnly <;> simp

theorem sortBy_notMem_fixedNames (field : String) : "SortBy" ++ field ∉ m.fixedNames := by
  rw [mem_iff_toList_mem]
  unfold fixedNames
  cases m.isReadOnly <;> simp

theorem append_injective (start : String) : Function.Injective (start ++ ·) := by
  intro a b h
  simpa [← String.toList_inj] using h

theorem nodup_namesBesidePlucks_iff :
    m.namesBesidePlucks.Nodup ↔ m.comparedFields.Nodup ∧ "" ∉ m.comparedFields := by
  unfold namesBesidePlucks
  rw [List.nodup_append, List.nodup_append, List.nodup_map_iff (append_injective _),
    List.nodup_map_iff (append_injective _)]
  constructor
  · rintro ⟨⟨_, hfields, hapart⟩, _⟩
    exact ⟨hfields, fun hmem =>
      hapart _ (filterBy_mem_fixedNames.mpr rfl) _ (List.mem_map_of_mem hmem) rfl⟩
  · rintro ⟨hfields, hnamed⟩
    refine ⟨⟨nodup_fixedNames, hfields, ?filter⟩, hfields, ?sort⟩
    case filter =>
      intro name hname filter hfilter heq
      obtain ⟨field, hfield, rfl⟩ := List.mem_map.mp hfilter
      rw [heq] at hname
      obtain rfl := filterBy_mem_fixedNames.mp hname
      exact hnamed hfield
    case sort =>
      intro name hname sort hsort heq
      obtain ⟨field, _, rfl⟩ := List.mem_map.mp hsort
      subst heq
      rcases List.mem_append.mp hname with hfixed | hfilter
      · exact sortBy_notMem_fixedNames field hfixed
      · obtain ⟨other, _, heq⟩ := List.mem_map.mp hfilter
        simp [← String.toList_inj] at heq

theorem nodup_memberNames_iff (hm : ofTable tb = .ok m) (t : Target) :
    ((m.collectionItems t).flatMap Item.memberNames).Nodup ↔ m.MembersApart := by
  rw [memberNames_collectionItems, (memberNames_perm hm).nodup_iff, List.nodup_append,
    nodup_namesBesidePlucks_iff]
  constructor
  · rintro ⟨⟨hfields, hnamed⟩, hplucks, hapart⟩
    exact ⟨hfields, hnamed, hplucks,
      fun c hc hmem => hapart _ hmem _ (List.mem_map_of_mem hc) rfl⟩
  · rintro ⟨hfields, hnamed, hplucks, hapart⟩
    refine ⟨⟨hfields, hnamed⟩, hplucks, fun name hname pluck hpluck heq => ?_⟩
    obtain ⟨c, hc, rfl⟩ := List.mem_map.mp hpluck
    exact hapart c hc (heq ▸ hname)

/-- The fields of a model are those of the columns. -/
theorem comparedFields_sublist (hm : ofTable tb = .ok m) :
    m.comparedFields.Sublist ((tb.columns.map (·.name)).map Names.field) := by
  obtain ⟨_, _, _, hcolumns⟩ := exists_primaryKey hm
  have hfields : m.columns.map (·.field) = (tb.columns.map (·.name)).map Names.field := by
    rw [hcolumns, List.map_map, List.map_map]
    rfl
  rw [← hfields]
  exact List.filter_sublist.map _

end Model

/-! ## The types of a table -/

namespace Declaration

open Sql

/-- The lookups of an accepted table have distinct names. Its record has distinct fields exactly if
`Names.field` keeps the columns apart, and its collection has distinct members exactly under the
conditions of `MembersApart`. Plain columns have distinct fields unless one spells the `id` of
another, and with distinct fields the plucks alone can have the name of another member. -/
theorem ofCreate_membersApart {create : CreateTable} {tb : Table} (hk : KeysListColumns create)
    (h : Table.ofCreate create = .ok tb) (t : Target) :
    ∃ d m, Dao.ofTable tb = .ok d ∧ Model.ofTable tb = .ok m ∧ d.methodNames.Nodup ∧
      ((Entity.ofTable tb).structItem.memberNames.Nodup ↔
        ∀ a ∈ columnNames create, ∀ b ∈ columnNames create,
          Names.field a = Names.field b → a = b) ∧
      ((((Entity.ofTable tb).recordItems t).flatMap Item.memberNames).Nodup ↔
        (Entity.ofTable tb).structItem.memberNames.Nodup ∧
          ∀ a ∈ columnNames create, Names.field a ∉ (Entity.ofTable tb).methodNames) ∧
      (((m.collectionItems t).flatMap Item.memberNames).Nodup ↔ m.MembersApart) ∧
      ((∀ a ∈ columnNames create, Names.IsPlain a) →
        ((Entity.ofTable tb).structItem.memberNames.Nodup ↔
          ∀ a ∈ columnNames create, ∀ b ∈ columnNames create, ¬ Names.SpellsId a b) ∧
        ((Entity.ofTable tb).structItem.memberNames.Nodup → m.namesBesidePlucks.Nodup)) := by
  obtain ⟨hvalid, hnames, _, ⟨d, hd⟩, m, hm⟩ := ofCreate_valid hk h
  have hdistinct : (columnNames create).Nodup := hnames ▸ hvalid.distinct
  have hfields : (Entity.ofTable tb).fields.map (·.name) =
      (columnNames create).map Names.field := by
    rw [Entity.names_fields_ofTable, ← hnames, List.map_map]
    rfl
  have hstruct : (Entity.ofTable tb).structItem.memberNames =
      (columnNames create).map Names.field := by
    rw [Entity.memberNames_structItem, hfields]
  have hcompared : m.comparedFields.Sublist ((columnNames create).map Names.field) :=
    hnames ▸ Model.comparedFields_sublist hm
  refine ⟨d, m, hd, hm, Dao.nodup_methodNames hd, ?fields, ?record,
    Model.nodup_memberNames_iff hm t, fun hplain => ⟨?plain, ?beside⟩⟩
  case fields => rw [hstruct, List.nodup_map_iff_inj_on hdistinct]
  case record =>
    rw [Entity.nodup_memberNames_iff, Entity.memberNames_structItem, hfields, List.forall_mem_map]
  case plain => rw [hstruct, Names.nodup_fields_iff hdistinct hplain]
  case beside =>
    intro hnodup
    rw [hstruct] at hnodup
    refine Model.nodup_namesBesidePlucks_iff.mpr ⟨hnodup.sublist hcompared, fun hempty => ?_⟩
    obtain ⟨a, ha, hfield⟩ := List.mem_map.mp (hcompared.mem hempty)
    exact Names.field_ne_empty (hplain a ha) hfield

/-- The columns of items are plain and have different fields. -/
theorem userItems_membersApart :
    KeysListColumns userItems ∧ Table.ofCreate userItems = .ok userItemsTable ∧
      (Entity.ofTable userItemsTable).structItem.memberNames = ["ID", "UserID", "ItemID"] ∧
      (((Entity.ofTable userItemsTable).recordItems (.ofModule "example")).flatMap
        Item.memberNames).Nodup ∧
      ∃ d m, Dao.ofTable userItemsTable = .ok d ∧ Model.ofTable userItemsTable = .ok m ∧
        d.methodNames.Nodup ∧ m.namesBesidePlucks.Nodup ∧
        ((m.collectionItems (.ofModule "example")).flatMap Item.memberNames).Nodup := by
  have hk : KeysListColumns userItems := by
    simp [KeysListColumns, userItems, ListsColumns]
  have hnames : (Entity.ofTable userItemsTable).structItem.memberNames =
      ["ID", "UserID", "ItemID"] := by decide +kernel
  have hfields : (Entity.ofTable userItemsTable).structItem.memberNames.Nodup := by
    rw [hnames]
    decide
  obtain ⟨d, m, hd, hm, hlookups, _, hrecord, hcollection, hplain⟩ :=
    ofCreate_membersApart hk ofCreate_userItems (.ofModule "example")
  have hbeside := (hplain (by decide +kernel)).2 hfields
  have hmembers : m.MembersApart := by
    obtain ⟨hcompared, hnamed⟩ := Model.nodup_namesBesidePlucks_iff.mp hbeside
    obtain rfl := Except.ok.inj hm
    exact ⟨hcompared, hnamed, by decide +kernel, by decide +kernel⟩
  exact ⟨hk, ofCreate_userItems, hnames, hrecord.mpr ⟨hfields, by decide +kernel⟩, d, m, hd, hm,
    hlookups, hbeside, hcollection.mpr hmembers⟩

/-- A column that spells the key of the table. -/
def spelledItems : CreateTable :=
  { name := [⟨"items", none⟩]
    columns := [
      ⟨⟨"id", none⟩, .integer "INT" none false, [.notNull]⟩,
      ⟨⟨"i_d", none⟩, .integer "INT" none false, []⟩]
    constraints := [.primaryKey [⟨"id", none⟩]] }

def spelledItemsTable : Table :=
  { name := "items"
    columns := [
      ⟨"id", "int", .int32, 0, false, false, true, none, true, [], []⟩,
      ⟨"i_d", "int", .int32, 0, false, false, false, none, false, [], []⟩]
    indexes := [⟨"PRIMARY", true, true, ["id"]⟩]
    isReadOnly := true }

/-- The record declares a field twice, and the collection a filter. -/
theorem spelledItems_repeatsField :
    Table.ofCreate spelledItems = .ok spelledItemsTable ∧
      (spelledItemsTable.columns.map (·.name)).Nodup ∧
      (Entity.ofTable spelledItemsTable).structItem.memberNames = ["ID", "ID"] ∧
      ∃ m, Model.ofTable spelledItemsTable = .ok m ∧ ¬ m.collectionMethodNames.Nodup := by
  refine ⟨Checks.eq_ok_of_toOption (by decide +kernel), by decide, by decide +kernel, _, rfl, ?_⟩
  decide +kernel

end Declaration

end Tablewright
