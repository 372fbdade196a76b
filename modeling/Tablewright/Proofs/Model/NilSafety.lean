import Tablewright.Proofs.Dao.Imports
import Tablewright.Proofs.Dao.NilSafety
import Tablewright.Proofs.Model.Selection

/-! Points in time in the file of a model. A filter compares them only where both are there, but the
sort by a column of points in time goes through all of them. -/

namespace Tablewright

open Code

namespace Model

variable {m : Model} {tb : Table} {e : Entity} {t : Target} {fn : Function} {w : Visible}

/-! ## What the file declares -/

theorem typeName_notMem_items {name : String} {type : TypeRef} :
    .typeName name type ∉ m.items t := by
  intro h
  unfold items at h
  rcases List.mem_append.mp h with h | hcollection
  · rcases List.mem_append.mp h with hmodel | hinstance
    · simp [modelItems, constructorItem, createInstanceItem, createInstancesItem, forwardItem_eq,
        Item.free, Item.method] at hmodel
    · simp [instanceItems, instanceMethod, Item.method] at hinstance
  · rcases collectionItems_cases hcollection with hstruct | hmaker | ⟨_, _, _, _, hmethod⟩
    · cases hstruct
    · cases hmaker
    · cases hmethod

theorem type_of_struct_mem_items {name : String} {fields : List Field}
    (h : .struct name fields ∈ m.items t) : ∀ f ∈ fields,
      f.type ∈ [m.daoType t, .pointer (m.entityType t), .slice m.instanceType] := by
  intro f hf
  rcases struct_mem_items_iff.mp h with ⟨_, rfl⟩ | ⟨_, rfl⟩ | ⟨_, rfl⟩
  · obtain rfl := List.mem_singleton.mp hf
    exact List.mem_cons_self
  · rcases List.mem_append.mp hf with hf | hf
    · obtain rfl := List.mem_singleton.mp hf
      exact List.mem_cons_of_mem _ List.mem_cons_self
    · split at hf
      · cases hf
      · obtain rfl := List.mem_singleton.mp hf
        exact List.mem_cons_self
  · obtain rfl := List.mem_singleton.mp hf
    exact List.mem_cons_of_mem _ (List.mem_cons_of_mem _ List.mem_cons_self)

theorem fieldType_ne_timestampType {name : String} {fields : List Field}
    (h : .struct name fields ∈ m.items t) : ∀ f ∈ fields, f.type ≠ timestampType := by
  intro f hf htime
  have htype := type_of_struct_mem_items h f hf
  simp only [htime, List.mem_cons, List.not_mem_nil, or_false] at htype
  rcases htype with hdao | hentity | hslice
  · cases hdao
  · exact pointer_entity_ne t m.name hentity.symm
  · cases hslice

theorem holdsNoTime_of_struct {name : String} {fields : List Field}
    (h : .struct name fields ∈ m.items t) : ∀ f ∈ fields, f.type.HoldsNoTime := by
  intro f hf
  have htype := type_of_struct_mem_items h f hf
  simp only [List.mem_cons, List.not_mem_nil, or_false] at htype
  rcases htype with h | h | h <;> rw [h]
  · exact holdsNoTime_qualified _ _
  · exact holdsNoTime_pointer _
  · exact holdsNoTime_slice fun htype => pointer_named_ne _ htype

theorem timestampType_notMem_results (h : .func fn ∈ m.items t) :
    timestampType ∉ fn.signature.results := by
  unfold items at h
  rcases List.mem_append.mp h with h | hcollection
  · rcases List.mem_append.mp h with hmodel | hinstance
    · simp only [modelItems, forwardItem_eq, List.mem_append, List.mem_ite_nil_right,
        List.mem_cons, List.mem_map, List.not_mem_nil, or_false] at hmodel
      rcases hmodel with ((h | h | h | h) | ⟨_, h⟩) | ⟨f, _, h⟩ <;> cases h
      · simp [timestampType]
      · simp [timestampType, instanceType]
      · simp [timestampType, collectionType]
      · simp [timestampType, forwarder, collectionType, TypeRef.error]
      · cases f.returnsCollection <;>
          simp [timestampType, forwarder, collectionType, instanceType, TypeRef.error]
    · rcases mem_instanceItems hinstance with hnone | ⟨_, _, _, hmethod⟩
      · cases hnone
      · cases hmethod
        simp [timestampType, TypeRef.error]
  · simp only [collectionItems, List.mem_append, List.mem_ite_nil_left, List.mem_cons,
      List.mem_flatMap, List.not_mem_nil, or_false] at hcollection
    rcases hcollection with (((h | h) | hfixed) | ⟨_, _, hcolumn⟩) | ⟨_, h⟩
    · cases h
    · cases h
      simp [timestampType, collectionType]
    · simp only [fixedMethods, List.mem_cons, List.not_mem_nil, or_false] at hfixed
      rcases hfixed with h | h | h | h | h | h | h | h | h <;> cases h <;>
        simp [timestampType, collectionType, instanceType, TypeRef.error]
    · rcases columnItems_cases hcolumn with ⟨_, h⟩ | ⟨_, _, h⟩ | h <;> cases h <;>
        simp [timestampType, collectionType]
    · cases h
      simp [timestampType, TypeRef.error]

theorem withholds_timestampType : (m.visible e t).Withholds timestampType :=
  e.withholds_timestampType t (fun _ _ => typeName_notMem_items)
    (fun _ => timestampType_notMem_results) fun _ _ => holdsNoTime_of_struct

/-! ## The model and one entity -/

/-- The data access that is held by the receiver. -/
theorem neverGives_daoField {scope below : Scope} {x name : String} {f : Field}
    {fields : List Field} (hfind : scope.find? x = some (.typed (.pointer (.named name)), below))
    (hstruct : .struct name fields ∈ m.items t) (hf : f ∈ fields)
    (hname : f.selector? = some m.daoField) :
    (m.visible e t).NeverGives timestampType scope (.field (.ident x) m.daoField) := by
  refine Visible.neverGives_field hfind (.field (.own hstruct) hf hname) fun fields hfields => ?_
  cases hfields with
  | own hfields => exact fieldType_ne_timestampType hfields

theorem neverGives_created (hw : w.Withholds timestampType) {scope below : Scope} {x : String}
    (hfind : scope.find? x = some (.result m.newCollection 0, below))
    (hnew : below.find? m.newCollectionName = none) :
    w.NeverGives timestampType scope (.ident x) :=
  Visible.neverGives_result hfind (hw.function hnew)

theorem avoidsTimestamps_forwardItem {name : String} {args : List FinderArg} {many : Bool}
    (h : .func fn = m.forwardItem t name args many) :
    (m.visible e t).AvoidsTimestamps fn.uses := by
  cases h
  have hm : ∀ params, (m.visible e t).NeverGives timestampType
      [("m", .typed (.pointer (.named m.implName))) :: params] (.ident "m") :=
    fun _ => Visible.neverGives_pointer rfl
  have hdao : ∀ params, (m.visible e t).NeverGives timestampType
      [("m", .typed (.pointer (.named m.implName))) :: params]
      (.field (.ident "m") m.daoField) := fun _ =>
    neverGives_daoField rfl (struct_mem_items_iff.mpr (.inl ⟨rfl, rfl⟩)) List.mem_cons_self rfl
  cases many <;> simp [Function.uses, Function.scope, modelReceiver, wrapBody] <;>
    exact ⟨hdao _, hm _, (hm _).behind rfl⟩

theorem avoidsTimestamps_modelItems (h : .func fn ∈ m.modelItems t) :
    (m.visible e t).AvoidsTimestamps fn.uses := by
  have hw : (m.visible e t).Withholds timestampType := withholds_timestampType
  simp only [modelItems, List.mem_append, List.mem_ite_nil_right, List.mem_cons, List.mem_map,
    List.not_mem_nil, or_false] at h
  rcases h with ((hstruct | hmaker | hone | hmany) | ⟨_, hall⟩) | ⟨f, _, hlookup⟩
  · cases hstruct
  · cases hmaker
    simp [Function.uses, Function.scope]
  · cases hone
    simp [Function.uses, Function.scope, modelReceiver]
    exact fun _ => Visible.neverGives_pointer rfl
  · cases hmany
    simp [Function.uses, Function.scope, modelReceiver]
    exact ⟨(neverGives_created hw rfl (find?_newCollectionName (by simp))).behind rfl,
      Visible.neverGives_pointer rfl⟩
  · exact avoidsTimestamps_forwardItem hall
  · exact avoidsTimestamps_forwardItem hlookup.symm

theorem avoidsTimestamps_instanceItems (h : .func fn ∈ m.instanceItems t) :
    (m.visible e t).AvoidsTimestamps fn.uses := by
  rcases mem_instanceItems h with hnone | ⟨hro, _, _, hmethod⟩
  · cases hnone
  · have hdao : .plain m.daoField (m.daoType t) ∈ m.instanceFields t := by
      simp [instanceFields, hro]
    cases hmethod
    simp [Function.uses, Function.scope]
    exact ⟨Visible.neverGives_pointer rfl,
      neverGives_daoField rfl instanceFields_mem_items hdao rfl,
      Visible.neverGives_pointer rfl⟩

/-! ## The collection -/

theorem avoidsTimestamps_fixedMethods (hw : w.Withholds timestampType)
    (h : .func fn ∈ m.fixedMethods t) (hkey : .func fn ≠ m.findByKeyItem) :
    w.AvoidsTimestamps fn.uses := by
  have hreceiver : ∀ params, w.NeverGives timestampType
      [("i", .typed m.collectionType) :: params] (.ident "i") :=
    fun _ => Visible.neverGives_pointer rfl
  simp only [fixedMethods, List.mem_cons, List.not_mem_nil, or_false] at h
  rcases h with h | h | h | h | h | h | h | h | h
  case inr.inl => exact absurd h hkey
  case inr.inr.inl =>
    cases h
    simp [Function.uses, Function.scope, collect]
    exact ⟨(hreceiver _).behind rfl,
      (neverGives_created hw rfl (find?_newCollectionName (by simp))).behind rfl⟩
  all_goals
    cases h
    simp [Function.uses, Function.scope, hreceiver]

theorem avoidsTimestamps_saveAllItem (h : .func fn = m.saveAllItem t) :
    w.AvoidsTimestamps fn.uses := by
  cases h
  simp [Function.uses, Function.scope]
  exact ⟨Visible.neverGives_pointer rfl, Visible.neverGives_pointer rfl⟩

/-! ### Columns -/

theorem Wrapper.neverGives {scope : Scope} {x : Expr} (h : m.Wrapper scope x)
    (hw : w.Withholds timestampType) : w.NeverGives timestampType scope x := by
  cases h with
  | param hfind => exact Visible.neverGives_pointer hfind
  | element hfind => exact hw.element hfind
  | sorted => exact hw.index

/-- What a helper of a column goes through is no timestamp, or it is tested, or the helper sorts. -/
theorem known_of_columnUse {c : ModelColumn} {order : Option SortOrder} {use : Use}
    (hw : w.Withholds timestampType) (h : m.ColumnUse c order use)
    (horder : order ≠ some .chronological) (hgives : w.Gives use.scope use.target [timestampType]) :
    use.target ∈ use.known := by
  have hnever : ¬ w.NeverGives timestampType use.scope use.target :=
    fun hnever => hnever _ hgives List.mem_cons_self
  cases h with
  | collection hfind => exact absurd (Visible.neverGives_pointer hfind) hnever
  | created hfind hnew => exact absurd (neverGives_created hw hfind hnew) hnever
  | wrapper hwrapper => exact absurd (hwrapper.neverGives hw) hnever
  | argument _ hknown => exact hknown
  | value _ hknown => exact hknown.resolve_right horder

/-- A helper of a column is safe unless it sorts points in time. -/
theorem nilSafe_of_isHelper {c : ModelColumn} (hw : w.Withholds timestampType)
    (h : m.IsHelper c fn)
    (hsort : c.sort = some .chronological → .func fn ≠ m.sortItem c .chronological) :
    w.NilSafe fn := by
  obtain ⟨order, huses, horder⟩ := columnUse_of_isHelper h
  intro use huse hgives
  refine known_of_columnUse hw (huses use huse) ?_ hgives
  intro hchronological
  obtain ⟨hcolumn, hitem⟩ := horder _ hchronological
  exact hsort hcolumn hitem

theorem nilSafe_collectionItems (hw : w.Withholds timestampType)
    (h : .func fn ∈ m.collectionItems t)
    (hsort : ∀ c ∈ m.columns, c.sort = some .chronological →
      .func fn ≠ m.sortItem c .chronological) : w.NilSafe fn := by
  simp only [collectionItems, List.mem_append, List.mem_ite_nil_left, List.mem_cons,
    List.mem_flatMap, List.not_mem_nil, or_false] at h
  rcases h with (((hstruct | hmaker) | hfixed) | ⟨c, hc, hcolumn⟩) | ⟨_, hsave⟩
  · cases hstruct
  · cases hmaker
    simp [Visible.NilSafe, Function.uses, Function.scope]
  · by_cases hkey : .func fn = m.findByKeyItem
    · refine nilSafe_of_isHelper hw (.inr ⟨rfl, hkey⟩) fun _ hitem => ?_
      simp [findByKeyItem, sortItem, collectionMethod, Item.method, hkey] at hitem
    · exact (avoidsTimestamps_fixedMethods hw hfixed hkey).nilSafe
  · exact nilSafe_of_isHelper hw (.inl hcolumn) (hsort c hc)
  · exact (avoidsTimestamps_saveAllItem hsave).nilSafe

/-- A function of the file is safe unless it sorts points in time. -/
theorem nilSafe_of_mem_items (h : .func fn ∈ m.items t)
    (hsort : ∀ c ∈ m.columns, c.sort = some .chronological →
      .func fn ≠ m.sortItem c .chronological) : (m.visible e t).NilSafe fn := by
  unfold items at h
  rcases List.mem_append.mp h with h | hcollection
  · rcases List.mem_append.mp h with hmodel | hinstance
    · exact (avoidsTimestamps_modelItems hmodel).nilSafe
    · exact (avoidsTimestamps_instanceItems hinstance).nilSafe
  · exact nilSafe_collectionItems withholds_timestampType hcollection hsort

/-- The sort by a column of points in time goes through them untested. -/
theorem not_nilSafe_sortItem (hm : ofTable tb = .ok m) {c : Column} (hc : c ∈ tb.columns)
    (htime : c.entityType = .timestamp) (hfield : Names.field c.name ∉ m.wrapperNames)
    (h : .func fn = m.sortItem (.ofColumn c) .chronological) :
    ¬ (m.visible (.ofTable tb) t).NilSafe fn := by
  have hselects := (selectsColumn_iff (t := t) hm hc).mpr hfield
  rw [SelectsColumn, valueType_eq_timestampType_iff.mpr htime] at hselects
  have hwrapper : m.Wrapper m.comparing (.index (.field (.ident "s") "values") (.ident "i")) :=
    .sorted rfl find?_sorting_newCollectionName
  have huse : ⟨m.comparing, [], sortedValue (.ofColumn c) "i", some "After"⟩ ∈ fn.uses := by
    rw [uses_sortItem h]
    exact List.mem_append_right _ (List.mem_append_left _ List.mem_cons_self)
  exact fun hsafe => absurd (hsafe _ huse (.field hwrapper.gives hselects)) List.not_mem_nil

/-- The columns that are sorted by time are those of points in time. -/
theorem sort_eq_chronological_iff {c : Column} :
    (ModelColumn.ofColumn c).sort = some .chronological ↔ c.entityType = .timestamp := by
  show c.entityType.sortOrder? = some .chronological ↔ c.entityType = .timestamp
  cases c.entityType <;> decide

theorem sortItem_mem_items {c : ModelColumn} {order : SortOrder} (hc : c ∈ m.columns)
    (hsort : c.sort = some order) : m.sortItem c order ∈ m.items t := by
  have hcolumn : m.sortItem c order ∈ m.columnItems c := by simp [columnItems, hsort]
  exact List.mem_append_right _ (List.mem_append_left _ (List.mem_append_right _
    (List.mem_flatMap.mpr ⟨c, hc, hcolumn⟩)))

end Model

/-! ## The files of a table -/

namespace Declaration

open Sql

/-- In the files of an accepted table, the functions go through points in time only where these were
tested, but for the sorts of a model by columns of points in time. These test nothing, unless the
wrapper of an entity hides the column from them. -/
theorem ofCreate_nilSafe {create : CreateTable} {tb : Table} (hk : KeysListColumns create)
    (h : Table.ofCreate create = .ok tb) (t : Target) :
    ∃ d m, Dao.ofTable tb = .ok d ∧ Model.ofTable tb = .ok m ∧
      (∀ fn ∈ ((Entity.ofTable tb).source t).functions,
        ((Entity.ofTable tb).visible t).NilSafe fn) ∧
      (∀ fn ∈ (d.source t).functions, (d.visible (.ofTable tb) t).NilSafe fn) ∧
      (∀ fn ∈ (m.source t).functions, (∀ c ∈ tb.columns, c.entityType = .timestamp →
        .func fn ≠ m.sortItem (.ofColumn c) .chronological) →
          (m.visible (.ofTable tb) t).NilSafe fn) ∧
      ∀ c ∈ tb.columns, c.entityType = .timestamp → Names.field c.name ∉ m.wrapperNames →
        ∃ fn ∈ (m.source t).functions, .func fn = m.sortItem (.ofColumn c) .chronological ∧
          ¬ (m.visible (.ofTable tb) t).NilSafe fn := by
  obtain ⟨_, _, _, ⟨d, hd⟩, m, hm⟩ := ofCreate_valid hk h
  obtain ⟨_, _, _, hcolumns⟩ := Model.exists_primaryKey hm
  refine ⟨d, m, hd, hm,
    fun fn hfn => (Entity.avoidsTimestamps_of_mem_items (SourceFile.mem_functions.mp hfn)).nilSafe,
    fun fn hfn => (Dao.avoidsTimestamps_of_mem_items (SourceFile.mem_functions.mp hfn)).nilSafe,
    fun fn hfn hsort => ?tested, fun c hc htime hfield => ?untested⟩
  case tested =>
    refine Model.nilSafe_of_mem_items (SourceFile.mem_functions.mp hfn) fun c hc hsorted => ?_
    rw [hcolumns] at hc
    obtain ⟨column, hcolumn, rfl⟩ := List.mem_map.mp hc
    exact hsort column hcolumn (Model.sort_eq_chronological_iff.mp hsorted)
  case untested =>
    obtain ⟨fn, hfn⟩ : ∃ fn, .func fn = m.sortItem (.ofColumn c) .chronological := ⟨_, rfl⟩
    have hmem : .func fn ∈ m.items t := hfn ▸ Model.sortItem_mem_items
      (hcolumns ▸ List.mem_map_of_mem hc) (Model.sort_eq_chronological_iff.mpr htime)
    exact ⟨fn, SourceFile.mem_functions.mpr hmem, hfn,
      Model.not_nilSafe_sortItem hm hc htime hfield hfn⟩

/-- Events have a point in time, which only the sort by it goes through untested. -/
theorem events_nilSafe :
    KeysListColumns Dao.events ∧ Table.ofCreate Dao.events = .ok Dao.eventsTable ∧
      ∃ d m, Dao.ofTable Dao.eventsTable = .ok d ∧ Model.ofTable Dao.eventsTable = .ok m ∧
        (∀ fn ∈ (d.source (.ofModule "example")).functions,
          (d.visible (.ofTable Dao.eventsTable) (.ofModule "example")).NilSafe fn) ∧
        ∀ fn ∈ (m.source (.ofModule "example")).functions, fn.signature.name ≠ "SortByOpenAt" →
          (m.visible (.ofTable Dao.eventsTable) (.ofModule "example")).NilSafe fn := by
  have hk : KeysListColumns Dao.events := by
    simp [KeysListColumns, Dao.events, ListsColumns]
  obtain ⟨d, m, hd, hm, _, hdao, hmodel, _⟩ :=
    ofCreate_nilSafe hk Dao.ofCreate_events (.ofModule "example")
  refine ⟨hk, Dao.ofCreate_events, d, m, hd, hm, hdao, fun fn hfn hname =>
    hmodel fn hfn fun c hc htime hsort => ?_⟩
  have hfield : Names.field c.name = "OpenAt" := by
    simp only [Dao.eventsTable, List.mem_cons, List.not_mem_nil, or_false] at hc
    rcases hc with rfl | rfl
    · cases htime
    · decide +kernel
  cases hsort
  exact hname (by rw [ModelColumn.sortName, ModelColumn.ofColumn, hfield]; rfl)

/-- The sort of events goes through points in time that may be missing. -/
theorem events_sort_not_nilSafe :
    Table.ofCreate Dao.events = .ok Dao.eventsTable ∧
      ∃ m, Model.ofTable Dao.eventsTable = .ok m ∧
        ∃ fn ∈ (m.source (.ofModule "example")).functions, fn.signature.name = "SortByOpenAt" ∧
          ¬ (m.visible (.ofTable Dao.eventsTable) (.ofModule "example")).NilSafe fn := by
  obtain ⟨m, hm⟩ : ∃ m, Model.ofTable Dao.eventsTable = .ok m := ⟨_, rfl⟩
  obtain ⟨_, _, _, hcolumns⟩ := Model.exists_primaryKey hm
  obtain ⟨c, hc, hcname, htime⟩ : ∃ c ∈ Dao.eventsTable.columns,
      c.name = "open_at" ∧ c.entityType = .timestamp :=
    ⟨_, List.mem_cons_of_mem _ List.mem_cons_self, rfl, rfl⟩
  have hfield : Names.field c.name = "OpenAt" := by
    rw [hcname]
    decide +kernel
  have hapart : Names.field c.name ∉ m.wrapperNames := by
    have hof := Model.isOf_of_ofTable hm
    have hname : m.name = "Event" := by
      rw [hof.name]
      decide +kernel
    have hcollection : m.collectionName = "Events" := by
      rw [hof.collectionName]
      decide +kernel
    have hreadOnly : m.isReadOnly = true := by
      rw [hof.isReadOnly]
      decide +kernel
    simp [Model.mem_wrapperNames, hfield, hname, hcollection, hreadOnly]
  obtain ⟨fn, hfn⟩ : ∃ fn, .func fn = m.sortItem (.ofColumn c) .chronological := ⟨_, rfl⟩
  have hmem : .func fn ∈ m.items (.ofModule "example") := hfn ▸ Model.sortItem_mem_items
    (hcolumns ▸ List.mem_map_of_mem hc) (Model.sort_eq_chronological_iff.mpr htime)
  have hsort : fn.signature.name = "SortByOpenAt" := by
    cases hfn
    rw [ModelColumn.sortName, ModelColumn.ofColumn, hfield]
    rfl
  exact ⟨Dao.ofCreate_events, m, hm, fn,
    SourceFile.mem_functions.mpr hmem, hsort,
    Model.not_nilSafe_sortItem hm hc htime hapart hfn⟩

end Declaration

end Tablewright
