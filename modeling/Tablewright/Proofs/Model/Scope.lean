import Tablewright.Model.Source
import Tablewright.Proofs.Dao.Methods
import Tablewright.Proofs.Dao.Scope
import Tablewright.Proofs.Entity.Scope
import Tablewright.Proofs.Schema.Validity

/-! The scope of names in the file of a model. Function literals bind names that the functions
around them bind as well. -/

namespace Tablewright

open Code

namespace Model

variable (m : Model) (t : Target) {o : Occurrence} {x : String}

/-- The name of the function that makes an empty collection. -/
def newCollectionName : String := "New" ++ m.collectionInstanceName

/-! ## Fragments -/

@[simp] theorem names_instanceType : m.instanceType.names = [m.instanceName] := by
  simp [instanceType]

@[simp] theorem free_newCollection : m.newCollection.free o = [m.newCollectionName] := by
  simp [newCollection, newCollectionName]

@[simp] theorem unused_newCollection : m.newCollection.unused = [] := by simp [newCollection]

@[simp] theorem free_values : values.free o = ["i"] := by simp [values]

@[simp] theorem unused_values : values.unused = [] := by simp [values]

@[simp] theorem free_valueCount : valueCount.free o = ["len", "i"] := by simp [valueCount]

@[simp] theorem unused_valueCount : valueCount.unused = [] := by simp [valueCount]

@[simp] theorem bound_eachValue (body : List Stmt) : (eachValue body).bound = [] := rfl

@[simp] theorem mem_free_eachValue {body : List Stmt} :
    x ∈ (eachValue body).free o ↔ x = "i" ∨ x ∈ Stmt.freeOf o body ∧ x ≠ "v" := by
  simp [eachValue]

theorem unused_eachValue {body : List Stmt} (h : "v" ∈ Stmt.freeOf .read body) :
    (eachValue body).unused = Stmt.unusedOf body := by
  simp [eachValue, unread_cons, h]

@[simp] theorem bound_addValue : addValue.bound = [] := rfl

@[simp] theorem free_addValue : addValue.free o = ["s", "v"] := by simp [addValue]

@[simp] theorem unused_addValue : addValue.unused = [] := by simp [addValue]

/-! ## The model -/

theorem mem_freeNames_constructorItem (h : x ∈ (m.constructorItem t).freeNames) :
    x = m.implName := by
  simp [constructorItem] at h
  grind

theorem mem_freeNames_createInstanceItem (h : x ∈ (m.createInstanceItem t).freeNames) :
    x = m.instanceName := by
  unfold createInstanceItem at h
  cases hreadOnly : m.isReadOnly <;> simp [hreadOnly, modelReceiver] at h <;> grind

theorem mem_freeNames_createInstancesItem (h : x ∈ (m.createInstancesItem t).freeNames) :
    x = m.newCollectionName := by
  simp [createInstancesItem, modelReceiver] at h
  grind

theorem freeNames_forwardItem (name : String) (args : List FinderArg) (many : Bool) :
    (m.forwardItem t name args many).freeNames = [] := by
  refine List.eq_nil_iff_forall_not_mem.mpr fun x h => ?_
  unfold forwardItem wrapBody at h
  cases many <;> simp [modelReceiver, List.flatMap_map, FinderArg.param] at h <;> grind

theorem unusedNames_forwardItem (name : String) (args : List FinderArg) (many : Bool) :
    (m.forwardItem t name args many).unusedNames = [] := by
  unfold forwardItem wrapBody
  cases many <;> simp [unread_cons, List.flatMap_map]

/-! ## One entity -/

theorem freeNames_instanceMethod (name : String) : (m.instanceMethod t name).freeNames = [] := by
  refine List.eq_nil_iff_forall_not_mem.mpr fun x h => ?_
  simp [instanceMethod] at h

theorem unusedNames_instanceMethod (name : String) :
    (m.instanceMethod t name).unusedNames = [] := by
  simp [instanceMethod]

/-! ## A collection in memory -/

/-- The names that the methods of a collection use but do not bind. -/
def collectionNames : List String :=
  ["append", "len", "int", "bool", "error", m.newCollectionName, m.instanceName]

theorem mem_freeNames_fixedMethods {item : Item} (h : item ∈ m.fixedMethods t)
    (hx : x ∈ item.freeNames) : x ∈ m.collectionNames := by
  simp [fixedMethods] at h
  rcases h with rfl | rfl | rfl | rfl | rfl | rfl | rfl | rfl | rfl <;>
    simp [collectionMethod, collect] at hx <;> simp [collectionNames] <;> grind

theorem unusedNames_fixedMethods {item : Item} (h : item ∈ m.fixedMethods t) :
    item.unusedNames = [] := by
  simp [fixedMethods] at h
  rcases h with rfl | rfl | rfl | rfl | rfl | rfl | rfl | rfl | rfl <;>
    simp [collectionMethod, collect, unread_cons, unused_eachValue]

theorem mem_free_matchesValue {c : ModelColumn} (h : x ∈ (matchesValue c).free o) :
    x = "v" ∨ x = "c" := by
  unfold matchesValue at h
  split at h <;> simp at h <;> grind

@[simp] theorem reads_matchesValue (c : ModelColumn) : "v" ∈ (matchesValue c).free o := by
  unfold matchesValue
  split <;> simp

@[simp] theorem unused_matchesValue (c : ModelColumn) : (matchesValue c).unused = [] := by
  unfold matchesValue
  split <;> simp

theorem mem_freeNames_filterItem {c : ModelColumn} (h : x ∈ (m.filterItem c).freeNames) :
    x ∈ m.collectionNames := by
  have hmatches := @mem_free_matchesValue .any x c
  simp [filterItem, collectionMethod, collect] at h
  simp [collectionNames]
  grind

theorem unusedNames_filterItem (c : ModelColumn) : (m.filterItem c).unusedNames = [] := by
  simp [filterItem, collectionMethod, collect, unread_cons, unused_eachValue]

@[simp] theorem free_sortedValue (c : ModelColumn) (position : String) :
    (sortedValue c position).free o = ["s", position] := by
  simp [sortedValue]

@[simp] theorem unused_sortedValue (c : ModelColumn) (position : String) :
    (sortedValue c position).unused = [] := by
  simp [sortedValue]

theorem mem_free_comesBefore {c : ModelColumn} {order : SortOrder}
    (h : x ∈ (comesBefore c order).1.free o ∨ x ∈ (comesBefore c order).2.free o) :
    x = "s" ∨ x = "i" ∨ x = "j" := by
  cases order <;> simp [comesBefore] at h <;> grind

theorem unused_comesBefore (c : ModelColumn) (order : SortOrder) :
    (comesBefore c order).1.unused = [] ∧ (comesBefore c order).2.unused = [] := by
  cases order <;> simp [comesBefore]

theorem mem_freeNames_sortItem {c : ModelColumn} {order : SortOrder}
    (h : x ∈ (m.sortItem c order).freeNames) : x ∈ m.collectionNames := by
  have hbefore := @mem_free_comesBefore .any x c order
  simp [sortItem, collectionMethod, collect] at h
  simp [collectionNames]
  grind

theorem unusedNames_sortItem (c : ModelColumn) (order : SortOrder) :
    (m.sortItem c order).unusedNames = [] := by
  obtain ⟨hdescending, hascending⟩ := unused_comesBefore c order
  simp [sortItem, collectionMethod, collect, unread_cons, unused_eachValue, hdescending, hascending]

theorem mem_freeNames_pluckItem {c : ModelColumn} (h : x ∈ (m.pluckItem c).freeNames) :
    x ∈ predeclared ∨ x ∈ m.collectionNames := by
  have htype := @mem_names_valueType x c.entityType
  simp [pluckItem, collectionMethod] at h
  simp [collectionNames]
  grind

theorem unusedNames_pluckItem (c : ModelColumn) : (m.pluckItem c).unusedNames = [] := by
  simp [pluckItem, collectionMethod, unread_cons]

theorem mem_freeNames_saveAllItem (h : x ∈ (m.saveAllItem t).freeNames) :
    x ∈ m.collectionNames := by
  simp [saveAllItem, collectionMethod] at h
  simp [collectionNames]
  grind

theorem unusedNames_saveAllItem : (m.saveAllItem t).unusedNames = [] := by
  simp [saveAllItem, collectionMethod]

/-! ## The file -/

/-- The names of the package that its functions use. -/
def usedNames : List String :=
  [m.implName, m.instanceName, m.collectionInstanceName, m.newCollectionName]

theorem mem_usedNames_of_collectionNames (h : x ∈ m.collectionNames) :
    x ∈ predeclared ∨ x ∈ m.usedNames := by
  have hpredeclared : ∀ x ∈ ["append", "len", "int", "bool", "error"], x ∈ predeclared := by decide
  rw [collectionNames] at h
  simp only [List.mem_cons, List.not_mem_nil, or_false] at h hpredeclared
  simp only [usedNames, List.mem_cons, List.not_mem_nil, or_false]
  grind

theorem wellScoped_modelItems {item : Item} (h : item ∈ m.modelItems t) :
    item.WellScoped m.usedNames := by
  have hforward : ∀ name args many, (m.forwardItem t name args many).WellScoped m.usedNames :=
    fun name args many =>
      ⟨by simp [freeNames_forwardItem], m.unusedNames_forwardItem t name args many⟩
  unfold modelItems at h
  rcases List.mem_append.mp h with h | hlookup
  · rcases List.mem_append.mp h with hfixed | hall
    · simp only [List.mem_cons, List.not_mem_nil, or_false] at hfixed
      rcases hfixed with rfl | rfl | rfl | rfl
      · exact ⟨nofun, rfl⟩
      · refine ⟨fun x hx => .inr ?_, by simp [constructorItem]⟩
        simp [m.mem_freeNames_constructorItem t hx, usedNames]
      · refine ⟨fun x hx => .inr ?_, ?_⟩
        · simp [m.mem_freeNames_createInstanceItem t hx, usedNames]
        · unfold createInstanceItem
          cases m.isReadOnly <;> simp
      · refine ⟨fun x hx => .inr ?_, by simp [createInstancesItem, unread_cons]⟩
        simp [m.mem_freeNames_createInstancesItem t hx, usedNames]
    · split at hall
      · obtain rfl := List.mem_singleton.mp hall
        exact hforward _ _ _
      · cases hall
  · obtain ⟨f, _, rfl⟩ := List.mem_map.mp hlookup
    exact hforward _ _ _

theorem wellScoped_instanceItems {item : Item} (h : item ∈ m.instanceItems t) :
    item.WellScoped m.usedNames := by
  have hmethod : ∀ name, (m.instanceMethod t name).WellScoped m.usedNames := fun name =>
    ⟨by simp [freeNames_instanceMethod], m.unusedNames_instanceMethod t name⟩
  unfold instanceItems at h
  rcases List.mem_append.mp h with hstruct | hmethods
  · obtain rfl := List.mem_singleton.mp hstruct
    exact ⟨nofun, rfl⟩
  · split at hmethods
    · cases hmethods
    · simp only [List.mem_cons, List.not_mem_nil, or_false] at hmethods
      rcases hmethods with rfl | rfl
      · exact hmethod "Save"
      · exact hmethod "Delete"

theorem wellScoped_columnItems {c : ModelColumn} {item : Item} (h : item ∈ m.columnItems c) :
    item.WellScoped m.usedNames := by
  simp only [columnItems, List.mem_append, List.mem_ite_nil_right, List.mem_singleton,
    List.mem_map] at h
  rcases h with (⟨_, rfl⟩ | ⟨order, _, rfl⟩) | rfl
  · exact ⟨fun x hx => m.mem_usedNames_of_collectionNames (m.mem_freeNames_filterItem hx),
      m.unusedNames_filterItem c⟩
  · exact ⟨fun x hx => m.mem_usedNames_of_collectionNames (m.mem_freeNames_sortItem hx),
      m.unusedNames_sortItem c order⟩
  · refine ⟨fun x hx => ?_, m.unusedNames_pluckItem c⟩
    rcases m.mem_freeNames_pluckItem hx with hpredeclared | hnames
    · exact .inl hpredeclared
    · exact m.mem_usedNames_of_collectionNames hnames

theorem wellScoped_collectionItems {item : Item} (h : item ∈ m.collectionItems t) :
    item.WellScoped m.usedNames := by
  unfold collectionItems at h
  rcases List.mem_append.mp h with h | hsave
  · rcases List.mem_append.mp h with h | hcolumns
    · rcases List.mem_append.mp h with htypes | hmethod
      · simp only [List.mem_cons, List.not_mem_nil, or_false] at htypes
        rcases htypes with rfl | rfl
        · exact ⟨nofun, rfl⟩
        · refine ⟨fun x hx => .inr ?_, by simp⟩
          simp at hx
          simp [usedNames]
          grind
      · exact ⟨fun x hx =>
          m.mem_usedNames_of_collectionNames (m.mem_freeNames_fixedMethods t hmethod hx),
          m.unusedNames_fixedMethods t hmethod⟩
    · obtain ⟨c, _, hc⟩ := List.mem_flatMap.mp hcolumns
      exact m.wellScoped_columnItems hc
  · split at hsave
    · cases hsave
    · obtain rfl := List.mem_singleton.mp hsave
      exact ⟨fun x hx => m.mem_usedNames_of_collectionNames (m.mem_freeNames_saveAllItem t hx),
        m.unusedNames_saveAllItem t⟩

theorem wellScoped_of_mem_items {item : Item} (h : item ∈ m.items t) :
    item.WellScoped m.usedNames := by
  rcases List.mem_append.mp h with h | hcollection
  · rcases List.mem_append.mp h with hmodel | hinstance
    · exact m.wellScoped_modelItems t hmodel
    · exact m.wellScoped_instanceItems t hinstance
  · exact m.wellScoped_collectionItems t hcollection

theorem usedNames_declared (h : x ∈ m.usedNames) : x ∈ (m.source t).declared := by
  have hdeclared : ∀ item ∈ m.items t, ∀ name, item.declared? = some name →
      name ∈ (m.source t).declared :=
    fun item hitem name hname => List.mem_filterMap.mpr ⟨item, hitem, hname⟩
  simp only [usedNames, List.mem_cons, List.not_mem_nil, or_false] at h
  rcases h with rfl | rfl | rfl | rfl
  · exact hdeclared (.struct m.implName [.plain m.daoField (m.daoType t)])
      (by simp [items, modelItems]) _ rfl
  · exact hdeclared _ (List.mem_append_left _ (List.mem_append_right _ List.mem_cons_self)) _ rfl
  · exact hdeclared _ (List.mem_append_right _ List.mem_cons_self) _ rfl
  · exact hdeclared _ (List.mem_append_right _ (List.mem_cons_of_mem _ List.mem_cons_self)) _ rfl

theorem namesInScope_source : (m.source t).NamesInScope :=
  SourceFile.namesInScope_of_wellScoped (fun _ => m.wellScoped_of_mem_items t)
    fun _ => m.usedNames_declared t

theorem readsLocals_source : (m.source t).ReadsLocals :=
  SourceFile.readsLocals_iff.mpr fun _ hitem => (m.wellScoped_of_mem_items t hitem).reads

end Model

/-! ## The files of a table -/

namespace Declaration

open Sql

/-- In the files of an accepted table, all names are in scope, and all local variables are read but
for the identifier in the `Save` of a table that is written and whose key is no integer. -/
theorem ofCreate_scoped {create : CreateTable} {tb : Table} (hk : KeysListColumns create)
    (h : Table.ofCreate create = .ok tb) (t : Target) :
    ∃ d m key, Dao.ofTable tb = .ok d ∧ Model.ofTable tb = .ok m ∧
      tb.primaryKeyColumn? = some key ∧
      (∀ file ∈ [(Entity.ofTable tb).source t, d.source t, m.source t], file.NamesInScope) ∧
      ((Entity.ofTable tb).source t).ReadsLocals ∧ (m.source t).ReadsLocals ∧
      (∀ fn ∈ (d.source t).functions,
        fn.unused = [] ∨ fn.signature.name = "Save" ∧ fn.unused = ["id"]) ∧
      ((d.source t).ReadsLocals ↔
        tb.convention.isReadOnly = true ∨ key.entityType.isInteger = true) := by
  obtain ⟨_, _, _, ⟨d, hd⟩, m, hm⟩ := ofCreate_valid hk h
  obtain ⟨key, hof⟩ := Dao.exists_isOf hd
  have hscopes : ∀ file ∈ [(Entity.ofTable tb).source t, d.source t, m.source t],
      file.NamesInScope := by
    simp only [List.forall_mem_cons]
    exact ⟨Entity.namesInScope_source _ t, d.namesInScope_source t, m.namesInScope_source t,
      List.forall_mem_nil _⟩
  have hreads := d.readsLocals_source_iff t
  rw [Dao.isReadOnly, hof.convention, hof.primaryKey] at hreads
  exact ⟨d, m, key, hd, hm, hof.identifier, hscopes, Entity.readsLocals_source _ t,
    m.readsLocals_source t, fun _ => d.unused_of_mem_functions t, hreads⟩

/-- Items belong to users and have integers as keys, so everything is read. -/
theorem userItems_scoped :
    KeysListColumns userItems ∧ Table.ofCreate userItems = .ok userItemsTable ∧
      ∃ d m key, Dao.ofTable userItemsTable = .ok d ∧ Model.ofTable userItemsTable = .ok m ∧
        userItemsTable.primaryKeyColumn? = some key ∧ key.entityType = .uint64 ∧
        ∀ file ∈ [(Entity.ofTable userItemsTable).source (.ofModule "example"),
          d.source (.ofModule "example"), m.source (.ofModule "example")],
          file.NamesInScope ∧ file.ReadsLocals := by
  have hk : KeysListColumns userItems := by
    simp [KeysListColumns, userItems, ListsColumns]
  obtain ⟨d, m, key, hd, hm, hkey, hscopes, hentity, hmodel, _, hreads⟩ :=
    ofCreate_scoped hk ofCreate_userItems (.ofModule "example")
  have htype : key.entityType = .uint64 := by
    obtain rfl := Option.some.inj hkey
    rfl
  have hdao : (d.source (.ofModule "example")).ReadsLocals :=
    hreads.mpr (.inr (by rw [htype]; rfl))
  refine ⟨hk, ofCreate_userItems, d, m, key, hd, hm, hkey, htype, ?_⟩
  simp only [List.forall_mem_cons] at hscopes ⊢
  exact ⟨⟨hscopes.1, hentity⟩, ⟨hscopes.2.1, hdao⟩, ⟨hscopes.2.2.1, hmodel⟩,
    List.forall_mem_nil _⟩

/-- Users with a string as their key. -/
def namedUsers : CreateTable :=
  { name := [⟨"users", none⟩]
    columns := [⟨⟨"id", none⟩, .character "VARCHAR" (some (.length 36 none)), [.notNull]⟩]
    constraints := [.primaryKey [⟨"id", none⟩]] }

def namedUsersTable : Table :=
  { name := "users"
    columns := [⟨"id", "varchar", .string, 36, false, false, true, none, true, [], []⟩]
    indexes := [⟨"PRIMARY", true, true, ["id"]⟩]
    isReadOnly := false }

/-- Saving a user defines an identifier that nothing reads. -/
theorem namedUsers_leaves_identifier :
    Table.ofCreate namedUsers = .ok namedUsersTable ∧
      ∃ d, Dao.ofTable namedUsersTable = .ok d ∧
        ∃ fn ∈ (d.source (.ofModule "example")).functions,
          fn.signature.name = "Save" ∧ fn.unused = ["id"] := by
  refine ⟨Checks.eq_ok_of_toOption (by decide +kernel), _, rfl, _,
    SourceFile.mem_functions.mpr (List.mem_cons_of_mem _ (List.mem_cons_of_mem _
      (List.mem_cons_of_mem _ List.mem_cons_self))), rfl, ?_⟩
  decide +kernel

end Declaration

end Tablewright
