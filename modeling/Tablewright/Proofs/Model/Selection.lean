import Tablewright.Proofs.Model.Uses

/-! Where the helpers of a column find its value. The wrapper of an entity embeds the entity, so a
column is selected from the entity unless the wrapper has a member of that name itself: the entity
goes by the name of its type, and there are the data access and the methods that change rows.
Nothing keeps the columns apart from these. -/

namespace Tablewright

open Code

namespace Model

variable {m : Model} {tb : Table} {e : Entity} {t : Target} {c : Column} {fn : Function}
  {name : String}

/-! ## The members of a wrapper -/

/-- The members that the wrapper of an entity has itself. If entity and collection have one name, so
have the types, and the members of the collection are among them. -/
def wrapperNames (m : Model) : List String :=
  [m.name] ++ (if m.isReadOnly then [] else [m.daoField, "Save", "Delete"]) ++
    (if m.name = m.collectionName then "values" :: m.collectionMethodNames else [])

theorem mem_wrapperNames : name ∈ m.wrapperNames ↔ name = m.name ∨
    (m.isReadOnly = false ∧ name ∈ [m.daoField, "Save", "Delete"]) ∨
      m.name = m.collectionName ∧ name ∈ "values" :: m.collectionMethodNames := by
  unfold wrapperNames
  simp only [List.mem_append, List.mem_singleton, List.mem_ite_nil_left, List.mem_ite_nil_right,
    Bool.not_eq_true, or_assoc]

/-- The members of a collection are its field and its methods. -/
theorem mem_collectionMembers (t : Target) :
    name ∈ "values" :: m.collectionMethodNames ↔ name = "values" ∨
      ∃ fn, .func fn ∈ m.collectionItems t ∧ fn.isMethodOf m.collectionInstanceName = true ∧
        fn.signature.name = name := by
  rw [← memberNames_collectionItems t, List.mem_flatMap]
  constructor
  · rintro ⟨item, hitem, hname⟩
    rcases collectionItems_cases hitem with rfl | rfl | ⟨_, _, _, _, rfl⟩
    · exact .inl (by simpa [Item.memberNames, collectionFields, Field.plain] using hname)
    · cases hname
    · obtain rfl := List.mem_singleton.mp hname
      exact .inr ⟨_, hitem, by simp [Function.isMethodOf, collectionType], rfl⟩
  · rintro (rfl | ⟨fn, hfn, hmethod, rfl⟩)
    · exact ⟨_, List.mem_cons_self, List.mem_singleton_self _⟩
    · refine ⟨_, hfn, ?_⟩
      cases hreceiver : fn.receiver with
      | none => simp [Function.isMethodOf, hreceiver] at hmethod
      | some _ => simp [Item.memberNames, hreceiver]

theorem isStruct_instanceName_iff {fields : List Field} :
    (m.visible e t).IsStruct (.named m.instanceName) fields ↔ fields = m.instanceFields t ∨
      m.name = m.collectionName ∧ fields = m.collectionFields := by
  have himpl : m.instanceName ≠ m.implName := implName_ne m.name
  rw [← collectionInstanceName_eq_iff, eq_comm (a := m.collectionInstanceName)]
  constructor
  · intro h
    cases h with
    | own h =>
      rcases struct_mem_items_iff.mp h with ⟨himpl', _⟩ | ⟨_, rfl⟩ | hcollection
      · exact absurd himpl' himpl
      · exact .inl rfl
      · exact .inr hcollection
  · rintro (rfl | hcollection)
    · exact .own instanceFields_mem_items
    · exact .own (struct_mem_items_iff.mpr (.inr (.inr hcollection)))

theorem declares_instanceName_iff :
    (m.visible e t).Declares (.named m.instanceName) name ↔ name ∈ m.wrapperNames := by
  rw [mem_wrapperNames, mem_collectionMembers t]
  constructor
  · intro h
    cases h with
    | field hstruct hf hname =>
      rcases isStruct_instanceName_iff.mp hstruct with rfl | ⟨hcollection, rfl⟩
      · rcases List.mem_append.mp hf with hf | hf
        · obtain rfl := List.mem_singleton.mp hf
          exact .inl (Option.some.inj hname).symm
        · split at hf
          · cases hf
          · rename_i hro
            obtain rfl := List.mem_singleton.mp hf
            obtain rfl := Option.some.inj hname
            exact .inr (.inl ⟨by simpa using hro, List.mem_cons_self⟩)
      · obtain rfl := List.mem_singleton.mp hf
        exact .inr (.inr ⟨hcollection, .inl (Option.some.inj hname).symm⟩)
    | method hmethod =>
      cases hmethod with
      | own hfn hmethod =>
        rcases (isMethodOf_instanceName_iff (SourceFile.mem_functions.mpr hfn)).mp hmethod with
          ⟨hro, name, hname, hitem⟩ | ⟨hcollection, hitem, hmethod⟩
        · cases hitem
          exact .inr (.inl ⟨hro, List.mem_cons_of_mem _ hname⟩)
        · exact .inr (.inr ⟨hcollection, .inr ⟨_, hitem, hmethod, rfl⟩⟩)
  · rintro (rfl | ⟨hro, hname⟩ | ⟨hcollection, rfl | ⟨fn, hitem, hmethod, rfl⟩⟩)
    · exact .field (isStruct_instanceName_iff.mpr (.inl rfl)) List.mem_cons_self rfl
    · rcases List.mem_cons.mp hname with rfl | hmethod
      · refine .field (f := .plain m.daoField (m.daoType t))
          (isStruct_instanceName_iff.mpr (.inl rfl)) ?_ rfl
        simp [instanceFields, hro]
      · obtain ⟨fn, hfn⟩ : ∃ fn, m.instanceMethod t name = .func fn := ⟨_, rfl⟩
        obtain ⟨hreceiver, rfl⟩ : fn.isMethodOf m.instanceName = true ∧
            name = fn.signature.name := by
          cases hfn
          exact ⟨by simp [Function.isMethodOf, instanceType], rfl⟩
        exact .method (.own (hfn ▸ instanceMethod_mem_items hro hmethod) hreceiver)
    · exact .field (isStruct_instanceName_iff.mpr (.inr ⟨hcollection, rfl⟩)) List.mem_cons_self rfl
    · refine .method (.own (List.mem_append_right _ hitem) ?_)
      rwa [← collectionInstanceName_eq_iff.mpr hcollection]

/-! ## Wrappers in the helpers -/

section Typing

variable {scope : Scope} {x : Expr}

theorem gives_newCollection (hnew : scope.find? m.newCollectionName = none) :
    (m.visible e t).Gives scope m.newCollection [m.collectionType] :=
  show (m.visible e t).Gives scope (.call (.ident m.collectionMaker.signature.name) [])
    m.collectionMaker.signature.results from .function hnew collectionMaker_mem_items rfl

theorem gives_values (h : (m.visible e t).Gives scope x [m.collectionType]) :
    (m.visible e t).Gives scope (.field x "values") [.slice m.instanceType] :=
  .field h (Visible.reachesField_self (f := .plain "values" (.slice m.instanceType))
    (.own collectionFields_mem_items) List.mem_cons_self rfl)

theorem Wrapper.gives (h : m.Wrapper scope x) :
    (m.visible e t).Gives scope x [m.instanceType] := by
  cases h with
  | param hfind => exact .declared hfind
  | element hfind hreceiver =>
    exact .element hfind (gives_values (.declared hreceiver)) (.slice _)
  | sorted hfind hnew =>
    exact .index (gives_values (.defined hfind (gives_newCollection hnew) rfl)) (.slice _)

end Typing

/-- The functions that belong to no type make a model and a collection. -/
theorem results_of_free (h : .func fn ∈ m.items t) (hfree : fn.receiver = none) :
    fn.signature.results = [.pointer (.named m.implName)] ∨
      fn.signature.results = [m.collectionType] := by
  unfold items at h
  rcases List.mem_append.mp h with h | hcollection
  · rcases List.mem_append.mp h with hmodel | hinstance
    · simp only [modelItems, forwardItem_eq, List.mem_append, List.mem_ite_nil_right,
        List.mem_cons, List.mem_map, List.not_mem_nil, or_false] at hmodel
      rcases hmodel with ((hstruct | hmaker | hone | hmany) | ⟨_, hall⟩) | ⟨f, _, hlookup⟩
      · cases hstruct
      · cases hmaker
        exact .inl rfl
      · cases hone
        cases hfree
      · cases hmany
        cases hfree
      · cases hall
        cases hfree
      · cases hlookup
        cases hfree
    · rcases mem_instanceItems hinstance with hnone | ⟨_, _, _, hmethod⟩
      · cases hnone
      · cases hmethod
        cases hfree
  · rcases collectionItems_cases hcollection with hstruct | hmaker | ⟨_, _, _, _, hmethod⟩
    · cases hstruct
    · cases hmaker
      exact .inr rfl
    · cases hmethod
      cases hfree

theorem valueType_ne_instanceType (type : EntityType) : type.valueType ≠ m.instanceType := by
  cases type <;> nofun

/-- No field is a wrapper. -/
theorem fieldType_ne_instanceType {fields : List Field}
    (h : .struct name fields ∈ (m.visible e t).own ++ (m.visible e t).entities) :
    ∀ f ∈ fields, f.type ≠ m.instanceType := by
  intro f hf htype
  rcases List.mem_append.mp h with hown | hentity
  · rcases struct_mem_items_iff.mp hown with ⟨_, rfl⟩ | ⟨_, rfl⟩ | ⟨_, rfl⟩
    · obtain rfl := List.mem_singleton.mp hf
      cases htype
    · rcases List.mem_append.mp hf with hf | hf
      · obtain rfl := List.mem_singleton.mp hf
        cases htype
      · split at hf
        · cases hf
        · obtain rfl := List.mem_singleton.mp hf
          cases htype
    · obtain rfl := List.mem_singleton.mp hf
      cases htype
  · obtain ⟨column, _, hcolumn⟩ := e.type_of_struct_mem_items t hentity f hf
    exact valueType_ne_instanceType _ (hcolumn.symm.trans htype)

/-- A helper selects nothing but its column from a wrapper. -/
theorem member_of_columnUse {column : ModelColumn} {order : Option SortOrder} {use : Use}
    (hne : m.name ≠ m.collectionName) (h : m.ColumnUse column order use)
    (hwrapper : (m.visible e t).Gives use.scope use.target [m.instanceType]) :
    use.member = some column.field := by
  have hcollection : m.collectionType ≠ m.instanceType := fun htype =>
    hne (collectionInstanceName_eq_iff.mp (TypeRef.named.inj (TypeRef.pointer.inj htype)))
  have hnever : ¬ (m.visible e t).NeverGives m.instanceType use.scope use.target :=
    fun hnever => hnever _ hwrapper List.mem_cons_self
  cases h with
  | collection hfind => exact absurd (Visible.neverGives_typed hfind hcollection) hnever
  | created hfind hnew =>
    refine absurd (Visible.neverGives_result hfind ?_) hnever
    refine Visible.neverGives_call_function hnew fun fn hfn hfree => ?_
    rcases results_of_free hfn hfree with hresults | hresults <;>
      rw [hresults, List.mem_singleton]
    · exact fun htype =>
        implName_ne m.name (TypeRef.named.inj (TypeRef.pointer.inj htype))
    · exact hcollection.symm
  | wrapper => rfl
  | argument hfind =>
    exact absurd (Visible.neverGives_typed hfind (valueType_ne_instanceType _)) hnever
  | value =>
    exact absurd (Visible.neverGives_field_of_types fun _ _ => fieldType_ne_instanceType) hnever

/-! ## The column of an entity -/

/-- The column is selected from a wrapper. -/
def SelectsColumn (m : Model) (e : Entity) (t : Target) (c : Column) : Prop :=
  (m.visible e t).ReachesField (.named m.instanceName) (Names.field c.name) (m.entityType t)
    c.entityType.valueType

/-- All that the function selects from a wrapper is the column of the entity. -/
def ReachesColumn (m : Model) (e : Entity) (t : Target) (c : Column) (fn : Function) : Prop :=
  ∀ use ∈ fn.uses, (m.visible e t).Gives use.scope use.target [m.instanceType] →
    use.member = some (Names.field c.name) ∧ m.SelectsColumn e t c

theorem selectsColumn_iff (hm : ofTable tb = .ok m) (hc : c ∈ tb.columns) :
    m.SelectsColumn (.ofTable tb) t c ↔ Names.field c.name ∉ m.wrapperNames := by
  obtain ⟨fields, tags, hstruct, hfield⟩ := (Entity.ofTable tb).field_mem_structItem
    (List.mem_map_of_mem hc)
  simp only [Entity.field] at hfield
  have hentity : (m.visible (.ofTable tb) t).IsStruct (m.entityType t) fields := by
    rw [entityType, (isOf_of_ofTable hm).name]
    exact .entity (hstruct ▸ Entity.structItem_mem_items _ t)
  have hne : m.entityType t ≠ .named m.instanceName := by simp [entityType]
  exact (Visible.reachesField_embedded_iff hne (isStruct_instanceName_iff.mpr (.inl rfl))
    List.mem_cons_self rfl hentity hfield rfl).trans (not_congr declares_instanceName_iff)

/-- A helper reaches its column exactly if the wrapper has no member of that name. -/
theorem reachesColumn_iff (hm : ofTable tb = .ok m) (hc : c ∈ tb.columns)
    (hne : m.name ≠ m.collectionName) (h : m.IsHelper (.ofColumn c) fn) :
    m.ReachesColumn (.ofTable tb) t c fn ↔ Names.field c.name ∉ m.wrapperNames := by
  rw [← selectsColumn_iff (t := t) hm hc]
  constructor
  · intro hreaches
    obtain ⟨use, huse, hwrapper, _⟩ := selects_of_isHelper h
    exact (hreaches use huse hwrapper.gives).2
  · intro hselects use huse hwrapper
    obtain ⟨order, huses, _⟩ := columnUse_of_isHelper h
    have hmember := member_of_columnUse hne (huses use huse) hwrapper
    simp only [ModelColumn.ofColumn] at hmember
    exact ⟨hmember, hselects⟩

theorem daoField_of_ofTable (hm : ofTable tb = .ok m) : m.daoField = Names.daoField tb.name := by
  unfold ofTable at hm
  split at hm
  · cases hm
  · obtain rfl := Except.ok.inj hm
    rfl

/-- A plain name has another form as the name of a collection than its singular has. -/
theorem name_ne_collectionName (hm : ofTable tb = .ok m) (hsingular : isSingular tb.name = false)
    (ht : Names.IsPlain tb.name) (hs : Names.IsPlain (singularOf tb.name)) :
    m.name ≠ m.collectionName := by
  have hof := isOf_of_ofTable hm
  rw [hof.name, hof.collectionName]
  intro heq
  have hown : singularOf tb.name = tb.name := (Names.pascal_eq_iff hs ht).mp heq
  simp [isSingular, Names.asciiLower_of_isPlain ht, hown] at hsingular

/-- Plain columns are kept from the data access by the case of its name, so that only the entity and
the methods that change rows are left. -/
theorem field_mem_wrapperNames_iff (hm : ofTable tb = .ok m) (hne : m.name ≠ m.collectionName)
    (hs : Names.IsPlain (singularOf tb.name)) (hc : Names.IsPlain name) :
    Names.field name ∈ m.wrapperNames ↔ Names.field name = Names.entity tb.name ∨
      tb.convention.isReadOnly = false ∧ name ∈ ["save", "delete"] := by
  have hof := isOf_of_ofTable hm
  have hdao : Names.field name ≠ m.daoField :=
    daoField_of_ofTable hm ▸ Names.field_ne_daoField hc hs
  have hword : ∀ word field, Names.IsPlain word → Names.segments word = [word.toList] →
      word.toList ≠ ['i', 'd'] → Names.field word = field →
      (Names.field name = field ↔ name = word) := by
    rintro word _ hplain hsegments hid rfl
    exact Names.field_eq_field_word_iff hc hplain hsegments hid
  have hsave := hword "save" "Save" (by decide) (by decide) (by decide) (by decide +kernel)
  have hdelete := hword "delete" "Delete" (by decide) (by decide) (by decide) (by decide +kernel)
  rw [mem_wrapperNames, ← hof.name, ← hof.isReadOnly]
  simp only [hne, false_and, or_false, List.mem_cons, List.not_mem_nil, hdao, false_or, hsave,
    hdelete]

end Model

/-! ## The helpers of a table -/

namespace Declaration

open Sql

/-- In the model of an accepted table, a column is selected from the wrapper of an entity exactly if
the wrapper has no member of that name, and then its helpers select it and nothing else. For plain
names this is so unless the field is the name of the entity, or the rows can change and the column
is `save` or `delete`. -/
theorem ofCreate_reachesColumns {create : CreateTable} {tb : Table} (hk : KeysListColumns create)
    (h : Table.ofCreate create = .ok tb) (t : Target) :
    ∃ m, Model.ofTable tb = .ok m ∧
      (∀ c ∈ tb.columns,
        (m.SelectsColumn (.ofTable tb) t c ↔ Names.field c.name ∉ m.wrapperNames) ∧
        (m.name ≠ m.collectionName → ∀ fn, m.IsHelper (.ofColumn c) fn →
          (m.ReachesColumn (.ofTable tb) t c fn ↔ m.SelectsColumn (.ofTable tb) t c))) ∧
      (Names.IsPlain tb.name → Names.IsPlain (singularOf tb.name) →
        m.name ≠ m.collectionName ∧ ∀ c ∈ tb.columns, Names.IsPlain c.name →
          (Names.field c.name ∈ m.wrapperNames ↔ Names.field c.name = Names.entity tb.name ∨
            tb.convention.isReadOnly = false ∧ c.name ∈ ["save", "delete"])) := by
  obtain ⟨hvalid, _, _, _, m, hm⟩ := ofCreate_valid hk h
  refine ⟨m, hm, fun c hc => ⟨Model.selectsColumn_iff hm hc, fun hne fn hfn => ?_⟩,
    fun ht hs => ?_⟩
  · rw [Model.selectsColumn_iff hm hc]
    exact Model.reachesColumn_iff hm hc hne hfn
  · have hne := Model.name_ne_collectionName hm hvalid.named ht hs
    exact ⟨hne, fun c _ hplain => Model.field_mem_wrapperNames_iff hm hne hs hplain⟩

/-- The helpers of items reach all columns. -/
theorem userItems_reachesColumns :
    KeysListColumns userItems ∧ Table.ofCreate userItems = .ok userItemsTable ∧
      ∃ m, Model.ofTable userItemsTable = .ok m ∧
        ∀ c ∈ userItemsTable.columns, ∀ fn, m.IsHelper (.ofColumn c) fn →
          m.ReachesColumn (.ofTable userItemsTable) (.ofModule "example") c fn := by
  have hk : KeysListColumns userItems := by
    simp [KeysListColumns, userItems, ListsColumns]
  obtain ⟨m, hm, hcolumns, hplain⟩ :=
    ofCreate_reachesColumns hk ofCreate_userItems (.ofModule "example")
  have hsingular : singularOf userItemsTable.name = "user_item" := by decide +kernel
  obtain ⟨hne, hnames⟩ := hplain (by decide) (by rw [hsingular]; decide)
  have hreached : ∀ c ∈ userItemsTable.columns, Names.IsPlain c.name ∧
      ¬ (Names.field c.name = Names.entity userItemsTable.name ∨
        userItemsTable.convention.isReadOnly = false ∧ c.name ∈ ["save", "delete"]) := by
    rw [Names.entity, hsingular]
    decide +kernel
  refine ⟨hk, ofCreate_userItems, m, hm, fun c hc fn hfn => ?_⟩
  obtain ⟨hselects, hhelpers⟩ := hcolumns c hc
  rw [hhelpers hne fn hfn, hselects, hnames c hc (hreached c hc).1]
  exact (hreached c hc).2

/-- Items with a column that is named as one of them. -/
def labelledItems : CreateTable :=
  { name := [⟨"items", none⟩]
    columns := [
      ⟨⟨"id", none⟩, .integer "INT" none false, [.notNull]⟩,
      ⟨⟨"item", none⟩, .sized "VARCHAR" (some 20) "", []⟩]
    constraints := [.primaryKey [⟨"id", none⟩]] }

def labelledItemsTable : Table :=
  { name := "items"
    columns := [
      ⟨"id", "int", .int32, 0, false, false, true, none, true, [], []⟩,
      ⟨"item", "varchar", .string, 20, false, false, false, none, false, [], []⟩]
    indexes := [⟨"PRIMARY", true, true, ["id"]⟩]
    isReadOnly := true }

/-- The filter by that column finds the entity in its place. -/
theorem labelledItems_hidesColumn :
    Table.ofCreate labelledItems = .ok labelledItemsTable ∧
      ∃ m, Model.ofTable labelledItemsTable = .ok m ∧
        ∃ c ∈ labelledItemsTable.columns, c.name = "item" ∧ Names.field c.name = m.name ∧
          ∃ fn ∈ (m.source (.ofModule "example")).functions, fn.signature.name = "FilterByItem" ∧
            m.IsHelper (.ofColumn c) fn ∧
            ¬ m.ReachesColumn (.ofTable labelledItemsTable) (.ofModule "example") c fn := by
  obtain ⟨m, hm⟩ : ∃ m, Model.ofTable labelledItemsTable = .ok m := ⟨_, rfl⟩
  obtain ⟨_, _, _, hcolumns⟩ := Model.exists_primaryKey hm
  have hname : m.name = "Item" := by
    rw [(Model.isOf_of_ofTable hm).name]
    decide +kernel
  have hcollection : m.collectionName = "Items" := by
    rw [(Model.isOf_of_ofTable hm).collectionName]
    decide +kernel
  have hne : m.name ≠ m.collectionName := by
    rw [hname, hcollection]
    decide
  have hfield : Names.field "item" = "Item" := by decide +kernel
  obtain ⟨c, hc, hcname, hfilterable⟩ : ∃ c ∈ labelledItemsTable.columns,
      c.name = "item" ∧ (ModelColumn.ofColumn c).filterable = true :=
    ⟨_, List.mem_cons_of_mem _ List.mem_cons_self, rfl, rfl⟩
  obtain ⟨fn, hfn⟩ : ∃ fn, .func fn = m.filterItem (.ofColumn c) := ⟨_, rfl⟩
  have hitem : .func fn ∈ m.columnItems (.ofColumn c) := by
    simp [Model.columnItems, hfilterable, hfn]
  have hhelper : m.IsHelper (.ofColumn c) fn := .inl hitem
  have hmem : .func fn ∈ m.items (.ofModule "example") := by
    have hcolumn : ModelColumn.ofColumn c ∈ m.columns := hcolumns ▸ List.mem_map_of_mem hc
    exact List.mem_append_right _ (List.mem_append_left _ (List.mem_append_right _
      (List.mem_flatMap.mpr ⟨_, hcolumn, hitem⟩)))
  have hfilter : fn.signature.name = "FilterByItem" := by
    cases hfn
    rw [ModelColumn.filterName, ModelColumn.ofColumn, hcname, hfield]
    rfl
  refine ⟨Checks.eq_ok_of_toOption (by decide +kernel), m, hm, c, hc, hcname, ?_, fn,
    SourceFile.mem_functions.mpr hmem, hfilter, hhelper, ?_⟩
  · rw [hcname, hfield, hname]
  · rw [Model.reachesColumn_iff hm hc hne hhelper, not_not, hcname, hfield, ← hname]
    exact Model.mem_wrapperNames.mpr (.inl rfl)

end Declaration

end Tablewright
