import Tablewright.Proofs.Dao.ReadOnly
import Tablewright.Proofs.Model.Members
import Tablewright.Proofs.Model.Types

/-! The methods that data access and model say they have, and those that their files declare. A data
access has just what it names, and so implements its interface. The collection of a model has what
it names, and if the entity is named as the collection, what the wrapper of an entity has as well:
then both types have one name. -/

namespace Tablewright

open Code

namespace Dao

/-- The file declares what the data access names, and the interface is what its type implements. -/
structure Implements (d : Dao) (t : Target) : Prop where
  functions : (d.source t).functionNames = ("New" ++ d.name) :: d.methodNames
  /-- There is one interface, with the signatures of the methods in the same order. -/
  interface : ∀ name signatures, .interface name signatures ∈ (d.source t).items ↔
    name = d.name ∧ signatures = ((d.source t).methodsOf d.implName).map (·.signature)
  distinct : d.methodNames.Nodup

variable {d : Dao} {tb : Table} {t : Target}

/-- The signature of a method that an item declares. -/
def declaredSignature? (d : Dao) (item : Item) : Option Signature :=
  (item.methodOf? d.implName).map (·.signature)

theorem declaredSignature?_method (s : Signature) (body : List Stmt) :
    d.declaredSignature? (.method d.receiver s body) = some s := by
  rw [declaredSignature?, receiver, Item.methodOf?_method, if_pos rfl]
  rfl

theorem signatures_methodsOf :
    ((d.source t).methodsOf d.implName).map (·.signature) = d.signatures t := by
  have hlookups : (d.methods.map (d.finderItem t)).filterMap d.declaredSignature? =
      d.methods.map (d.finderSignature t) := by
    rw [List.filterMap_map, ← List.filterMap_eq_map]
    exact List.filterMap_congr fun f _ => declaredSignature?_method ..
  have hdeclared : [d.interfaceItem t, .struct d.implName (d.implFields t),
      d.constructorItem t].filterMap d.declaredSignature? = [] := rfl
  rw [SourceFile.map_methodsOf]
  show (d.items t).filterMap d.declaredSignature? = _
  unfold items signatures
  rw [List.filterMap_append, List.filterMap_append, hlookups, hdeclared, List.nil_append]
  congr 1
  split <;>
    simp only [findsAllItem, saveItem, deleteItem, List.filterMap_cons, List.filterMap_nil,
      declaredSignature?_method]

theorem interface_mem_items_iff {name : String} {signatures : List Signature} :
    .interface name signatures ∈ (d.source t).items ↔
      name = d.name ∧ signatures = d.signatures t := by
  constructor
  · intro h
    have hitem : .interface name signatures ∈ d.items t := h
    refine ⟨?_, signatures_of_mem h⟩
    cases hro : d.isReadOnly <;>
      simp [items, hro, interfaceItem, constructorItem, findsAllItem, saveItem, deleteItem,
        finderItem, Item.free, Item.method] at hitem <;> exact hitem.1
  · rintro ⟨rfl, rfl⟩
    exact List.mem_append_left _ (List.mem_append_left _ List.mem_cons_self)

theorem implements (h : ofTable tb = .ok d) (t : Target) : d.Implements t := by
  refine ⟨?_, fun name signatures => ?_, nodup_methodNames h⟩
  · rw [SourceFile.functionNames_eq, names_functions]
  · rw [signatures_methodsOf, interface_mem_items_iff]

end Dao

namespace Model

/-- The names of the methods that the file declares for the collection. -/
def declaredNames (m : Model) (t : Target) : List String :=
  ((m.source t).methodsOf m.collectionInstanceName).map (·.signature.name)

/-- The file declares the methods that the model names for the collection. -/
structure DeclaresNamed (m : Model) (t : Target) : Prop where
  apart : m.name ≠ m.collectionName ∨ m.isReadOnly = true →
    m.declaredNames t = m.collectionMethodNames
  /-- The methods of the wrapper of an entity come first if both types have one name. -/
  together : m.name = m.collectionName → m.isReadOnly = false →
    m.declaredNames t = ["Save", "Delete"] ++ m.collectionMethodNames

variable {m : Model} {t : Target}

/-- The name of a method that an item declares for the collection. -/
def declaredName? (m : Model) (item : Item) : Option String :=
  (item.methodOf? m.collectionInstanceName).map (·.signature.name)

theorem declaredName?_collectionMethod (name : String) (params : List Param)
    (results : List TypeRef) (body : List Stmt) :
    m.declaredName? (m.collectionMethod name params results body) = some name := by
  rw [declaredName?, collectionMethod, collectionType, Item.methodOf?_method, if_pos rfl]
  rfl

theorem declaredName?_columnItems (c : ModelColumn) :
    (m.columnItems c).filterMap m.declaredName? = c.methodNames := by
  have hfilter : m.declaredName? (m.filterItem c) = some c.filterName :=
    declaredName?_collectionMethod ..
  have hsort : ∀ order, m.declaredName? (m.sortItem c order) = some c.sortName :=
    fun _ => declaredName?_collectionMethod ..
  have hpluck : m.declaredName? (m.pluckItem c) = some c.pluralField :=
    declaredName?_collectionMethod ..
  unfold columnItems ModelColumn.methodNames
  cases c.filterable <;> cases c.sort <;> simp [hfilter, hsort, hpluck]

/-- The declarations of the collection are the methods that it names. -/
theorem declaredName?_collectionItems :
    (m.collectionItems t).filterMap m.declaredName? = m.collectionMethodNames := by
  have hsave : m.declaredName? (m.saveAllItem t) = some "Save" :=
    declaredName?_collectionMethod ..
  have hcolumns : (m.columns.flatMap m.columnItems).filterMap m.declaredName? =
      m.columns.flatMap (·.methodNames) := by
    rw [List.filterMap_flatMap]
    simp only [declaredName?_columnItems]
  have hfixed : (m.fixedMethods t).filterMap m.declaredName? =
      ["Add", "FindBy" ++ m.primaryKey.field, "FilterBy", "Each", "EachWithError", "First", "At",
        "Len", "IsEmpty"] := by
    simp only [fixedMethods, List.filterMap_cons, List.filterMap_nil,
      declaredName?_collectionMethod]
  unfold collectionItems collectionMethodNames
  rw [List.filterMap_append, List.filterMap_append, List.filterMap_append, hcolumns, hfixed]
  cases m.isReadOnly
  · simp only [Bool.false_eq_true, if_false, List.filterMap_cons, hsave]
    rfl
  · rfl

theorem declaredName?_modelItems : (m.modelItems t).filterMap m.declaredName? = [] := by
  refine List.filterMap_eq_nil_iff.mpr fun item hitem => ?_
  have himpl : m.implName ≠ m.collectionInstanceName := (implName_ne m.collectionName).symm
  rcases mem_modelItems hitem with hnone | ⟨s, body, rfl⟩ | ⟨s, body, rfl⟩
  · rw [declaredName?, Item.methodOf?, hnone]
    rfl
  · rw [declaredName?, Item.methodOf?_free, Option.map_none]
  · rw [declaredName?, modelReceiver, Item.methodOf?_method, if_neg himpl]
    rfl

theorem declaredName?_instanceItems : (m.instanceItems t).filterMap m.declaredName? =
    if m.name = m.collectionName ∧ m.isReadOnly = false then ["Save", "Delete"] else [] := by
  have hmethod : ∀ name, m.declaredName? (m.instanceMethod t name) =
      if m.name = m.collectionName then some name else none := by
    intro name
    rw [declaredName?, instanceMethod, instanceType, Item.methodOf?_method]
    by_cases hname : m.name = m.collectionName
    · rw [if_pos hname, if_pos (collectionInstanceName_eq_iff.mpr hname).symm]
      rfl
    · rw [if_neg hname, if_neg fun h => hname (collectionInstanceName_eq_iff.mp h.symm)]
      rfl
  have hstruct : ∀ fields, [Item.struct m.instanceName fields].filterMap m.declaredName? = [] :=
    fun _ => rfl
  unfold instanceItems
  rw [List.filterMap_append, hstruct, List.nil_append]
  cases m.isReadOnly with
  | true => simp
  | false =>
    simp only [Bool.false_eq_true, if_false, List.filterMap_cons, List.filterMap_nil, hmethod]
    by_cases hname : m.name = m.collectionName <;> simp [hname]

theorem declaredNames_eq : m.declaredNames t =
    (if m.name = m.collectionName ∧ m.isReadOnly = false then ["Save", "Delete"] else []) ++
      m.collectionMethodNames := by
  rw [declaredNames, SourceFile.map_methodsOf]
  show (m.items t).filterMap m.declaredName? = _
  unfold items
  rw [List.filterMap_append, List.filterMap_append, declaredName?_modelItems,
    declaredName?_instanceItems, declaredName?_collectionItems, List.nil_append]

theorem declaresNamed (m : Model) (t : Target) : m.DeclaresNamed t := by
  refine ⟨fun h => ?_, fun hname hro => ?_⟩
  · rw [declaredNames_eq, if_neg ?_, List.nil_append]
    rintro ⟨hname, hro⟩
    rcases h with hne | hread
    · exact hne hname
    · exact absurd hread (by simp [hro])
  · rw [declaredNames_eq, if_pos ⟨hname, hro⟩]

end Model

/-- The data access of a table implements its interface, and the collection of its model has the
methods that are named, if it is not named as the wrapper of an entity. -/
theorem Table.files_declareNamed (tb : Table) (t : Target) :
    (∀ d, Dao.ofTable tb = .ok d → d.Implements t) ∧
      ∀ m, Model.ofTable tb = .ok m → m.DeclaresNamed t :=
  ⟨fun _ hd => Dao.implements hd t, fun m _ => m.declaresNamed t⟩

open Declaration in
/-- Rows of items change, and their collection has a name of its own. -/
theorem userItems_filesDeclareNamed :
    ∃ d m, Dao.ofTable userItemsTable = .ok d ∧ Model.ofTable userItemsTable = .ok m ∧
      (d.source (.ofModule "example")).functionNames =
        ["NewUserItem", "Save", "Delete", "Find", "FindByID", "FindByIDs", "FindByItemID",
          "FindByItemIDs"] ∧
      Item.interface "UserItem"
        (((d.source (.ofModule "example")).methodsOf "UserItemImpl").map (·.signature)) ∈
          (d.source (.ofModule "example")).items ∧
      m.declaredNames (.ofModule "example") =
        ["Add", "FindByID", "FilterBy", "Each", "EachWithError", "First", "At", "Len", "IsEmpty",
          "FilterByID", "SortByID", "IDs", "FilterByUserID", "SortByUserID", "UserIDs",
          "FilterByItemID", "SortByItemID", "ItemIDs", "Save"] := by
  obtain ⟨d, hd⟩ : ∃ d, Dao.ofTable userItemsTable = .ok d := ⟨_, rfl⟩
  obtain ⟨m, hm⟩ : ∃ m, Model.ofTable userItemsTable = .ok m := ⟨_, rfl⟩
  obtain ⟨hdao, hmodel⟩ := Table.files_declareNamed userItemsTable (.ofModule "example")
  obtain ⟨hname, hmethods⟩ : d.name = "UserItem" ∧ d.methodNames =
      ["Save", "Delete", "Find", "FindByID", "FindByIDs", "FindByItemID", "FindByItemIDs"] := by
    obtain rfl := Except.ok.inj hd
    decide +kernel
  obtain ⟨hapart, hhelpers⟩ : m.name ≠ m.collectionName ∧ m.collectionMethodNames =
      ["Add", "FindByID", "FilterBy", "Each", "EachWithError", "First", "At", "Len", "IsEmpty",
        "FilterByID", "SortByID", "IDs", "FilterByUserID", "SortByUserID", "UserIDs",
        "FilterByItemID", "SortByItemID", "ItemIDs", "Save"] := by
    obtain rfl := Except.ok.inj hm
    decide +kernel
  have himpl : d.implName = "UserItemImpl" := by
    rw [Dao.implName, hname]
    rfl
  refine ⟨d, m, hd, hm, ?functions, ?interface, ?collection⟩
  case functions =>
    rw [(hdao d hd).functions, hname, hmethods]
    rfl
  case interface =>
    rw [← himpl]
    exact ((hdao d hd).interface _ _).mpr ⟨hname.symm, rfl⟩
  case collection => rw [(hmodel m hm).apart (.inl hapart), hhelpers]

/-- A table whose name is no plural, with rows that change. A declaration of it is refused. -/
def singularUserItem : Table :=
  { name := "user_item"
    columns := [⟨"id", "int", .int32, 0, false, false, true, none, true, [], []⟩]
    indexes := [⟨"PRIMARY", true, true, ["id"]⟩]
    isReadOnly := false }

/-- The wrapper of an entity has the name of the collection, so the collection seems to have methods
that the model does not name. -/
theorem singularUserItem_declaresUnnamed :
    ∃ m, Model.ofTable singularUserItem = .ok m ∧
      m.declaredNames (.ofModule "example") = ["Save", "Delete"] ++ m.collectionMethodNames ∧
      m.declaredNames (.ofModule "example") ≠ m.collectionMethodNames := by
  obtain ⟨m, hm⟩ : ∃ m, Model.ofTable singularUserItem = .ok m := ⟨_, rfl⟩
  have hsame : m.name = m.collectionName ∧ m.isReadOnly = false := by
    obtain rfl := Except.ok.inj hm
    decide +kernel
  have hnames : m.declaredNames (.ofModule "example") =
      ["Save", "Delete"] ++ m.collectionMethodNames := by
    rw [Model.declaredNames_eq, if_pos hsame]
  refine ⟨m, hm, hnames, ?_⟩
  rw [hnames]
  exact fun h => List.cons_ne_nil _ _ (List.append_left_eq_self.mp h)

end Tablewright
