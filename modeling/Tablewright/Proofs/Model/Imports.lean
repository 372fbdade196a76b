import Tablewright.Model.Source
import Tablewright.Proofs.Dao.Imports
import Tablewright.Proofs.Entity.Imports
import Tablewright.Proofs.Finder.Arguments

/-! The imports of a model. Its helpers refer to the package of time for the columns that are points
in time. The lookups that it forwards and the search by identifier do so too, but what they take are
columns of the same table. -/

namespace Tablewright

open Code

namespace Model

/-- Some column has an order. -/
def Sorts (m : Model) : Prop := ∃ c ∈ m.columns, c.sort.isSome = true

/-- Some column is a point in time. -/
def HoldsTime (m : Model) : Prop := ∃ c ∈ m.columns, c.entityType = .timestamp

/-- The identifier and the arguments of the lookups are columns of the model. -/
structure Covers (m : Model) : Prop where
  primaryKey : m.primaryKey ∈ m.columns
  takesTime : ∀ f ∈ m.finders, f.TakesTime → m.HoldsTime

theorem covers_of_ofTable {tb : Table} {m : Model} (h : ofTable tb = .ok m) : m.Covers := by
  unfold ofTable at h
  split at h
  · cases h
  · rename_i primary hprimary
    obtain rfl := Except.ok.inj h
    refine ⟨List.mem_map_of_mem (List.mem_of_find?_eq_some hprimary), ?_⟩
    intro f hf htime
    obtain ⟨a, ha, htype⟩ := htime
    obtain ⟨c, hc, hac⟩ := Finder.exists_standsFor hf ha
    exact ⟨.ofColumn c, List.mem_map_of_mem hc, hac.entityType.symm.trans htype⟩

variable (m : Model) (t : Target) {p : String}

theorem mem_imports_iff :
    p ∈ m.imports t ↔
      p = t.packagePath entityPackage ∨ p = t.packagePath daoPackage ∨ m.Sorts ∧ p = sortPath ∨
        m.HoldsTime ∧ p = timePath ∨ p = t.errorsPath := by
  have hsorts : p ∈ (if m.columns.any (·.sort.isSome) then [sortPath] else []) ↔
      m.Sorts ∧ p = sortPath := by
    unfold Sorts
    split <;> simp_all
  have htime : p ∈ (if m.columns.any (·.entityType == .timestamp) then [timePath] else []) ↔
      m.HoldsTime ∧ p = timePath := by
    unfold HoldsTime
    split <;> simp_all
  unfold imports
  rw [List.mem_append, List.mem_append, List.mem_append, hsorts, htime]
  simp [or_assoc]

/-! ## Shared fragments -/

@[simp] theorem packages_entityType :
    (m.entityType t).packages = [t.packagePath entityPackage] := by
  simp [entityType]

@[simp] theorem packages_daoType : (m.daoType t).packages = [t.packagePath daoPackage] := by
  simp [daoType]

@[simp] theorem packages_instanceType : m.instanceType.packages = [] := by simp [instanceType]

@[simp] theorem packages_collectionType : m.collectionType.packages = [] := by
  simp [collectionType]

@[simp] theorem packages_modelReceiver : m.modelReceiver.packages = [] := by
  simp [modelReceiver]

@[simp] theorem packages_newCollection : m.newCollection.packages = [] := by
  simp [newCollection]

@[simp] theorem packages_values : values.packages = [] := by simp [values]

@[simp] theorem packages_valueCount : valueCount.packages = [] := by simp [valueCount]

@[simp] theorem packages_eachValue (body : List Stmt) :
    (eachValue body).packages = body.flatMap Stmt.packages := by
  simp [eachValue]

@[simp] theorem packages_addValue : addValue.packages = [] := by simp [addValue]

@[simp] theorem packages_collect (body : List Stmt) :
    (m.collect body).flatMap Stmt.packages = body.flatMap Stmt.packages := by
  simp [collect]

@[simp] theorem packages_collectionMethod (name : String) (params : List Param)
    (results : List TypeRef) (body : List Stmt) :
    (m.collectionMethod name params results body).packages =
      params.flatMap Param.packages ++ results.flatMap TypeRef.packages ++
        body.flatMap Stmt.packages := by
  simp [collectionMethod]

/-! ## What the items refer to -/

theorem mem_packages_wrapBody (call : Expr) (many : Bool) :
    p ∈ (wrapBody t call many).flatMap Stmt.packages ↔ p ∈ call.packages ∨ p = t.errorsPath := by
  unfold wrapBody
  split <;> simp

theorem mem_packages_forwardItem (name : String) (args : List FinderArg) (many : Bool) :
    p ∈ (m.forwardItem t name args many).packages ↔
      (∃ a ∈ args, a.entityType = .timestamp) ∧ p = timePath ∨ p = t.errorsPath := by
  have hresult : (if many then m.collectionType else m.instanceType).packages = [] := by
    split <;> simp
  unfold forwardItem
  simp only [Item.packages_method, Signature.packages_mk, List.mem_append, mem_packages_wrapBody,
    FinderArg.mem_packages_params]
  simp [hresult, List.flatMap_map]

/-- The forwarded lookups refer to the package of time only if one of them takes a time. -/
theorem of_mem_packages_forwards
    (h : p ∈ (if m.isReadOnly then [m.forwardItem t "FindsAll" [] true] else []).flatMap
        Item.packages ∨
      p ∈ (m.finders.map fun f => m.forwardItem t f.name f.args f.returnsCollection).flatMap
        Item.packages) :
    (∃ f ∈ m.finders, f.TakesTime) ∧ p = timePath ∨ p = t.errorsPath := by
  rcases h with h | h
  · split at h
    · rw [List.flatMap_singleton, mem_packages_forwardItem] at h
      rcases h with ⟨⟨a, ha, _⟩, _⟩ | h
      · cases ha
      · exact .inr h
    · cases h
  · rw [List.flatMap_map, List.mem_flatMap] at h
    obtain ⟨f, hf, h⟩ := h
    rcases (m.mem_packages_forwardItem t f.name f.args f.returnsCollection).mp h with
      ⟨htime, h⟩ | h
    · exact .inl ⟨⟨f, hf, htime⟩, h⟩
    · exact .inr h

theorem mem_packages_fixedItems :
    p ∈ [Item.struct m.implName [.plain m.daoField (m.daoType t)], m.constructorItem t,
        m.createInstanceItem t, m.createInstancesItem t].flatMap Item.packages ↔
      p = t.packagePath entityPackage ∨ p = t.packagePath daoPackage := by
  cases h : m.isReadOnly <;>
    simp [constructorItem, createInstanceItem, createInstancesItem, h] <;> tauto

theorem mem_packages_instanceItems :
    p ∈ (m.instanceItems t).flatMap Item.packages ↔
      p = t.packagePath entityPackage ∨
        m.isReadOnly = false ∧ (p = t.packagePath daoPackage ∨ p = t.errorsPath) := by
  cases h : m.isReadOnly with
  | true => simp [instanceItems, h]
  | false => simp [instanceItems, h, instanceMethod]

theorem mem_packages_fixedMethods :
    p ∈ (m.fixedMethods t).flatMap Item.packages ↔
      m.primaryKey.entityType = .timestamp ∧ p = timePath ∨ p = t.errorsPath := by
  simp [fixedMethods]

theorem packages_matchesValue (c : ModelColumn) : (matchesValue c).packages = [] := by
  unfold matchesValue
  dsimp only
  split <;> simp

theorem mem_packages_filterItem (c : ModelColumn) :
    p ∈ (m.filterItem c).packages ↔ c.entityType = .timestamp ∧ p = timePath := by
  simp [filterItem, packages_matchesValue]

theorem packages_sortItem (c : ModelColumn) (order : SortOrder) :
    (m.sortItem c order).packages = [sortPath] := by
  cases order <;> simp [sortItem, comesBefore, sortedValue]

theorem mem_packages_pluckItem (c : ModelColumn) :
    p ∈ (m.pluckItem c).packages ↔ c.entityType = .timestamp ∧ p = timePath := by
  simp [pluckItem]

theorem mem_packages_columnItems (c : ModelColumn) :
    p ∈ (m.columnItems c).flatMap Item.packages ↔
      c.sort.isSome = true ∧ p = sortPath ∨ c.entityType = .timestamp ∧ p = timePath := by
  have hfilter : p ∈ (if c.filterable then [m.filterItem c] else []).flatMap Item.packages →
      c.entityType = .timestamp ∧ p = timePath := by
    split
    · simp [mem_packages_filterItem]
    · simp
  have hsort : p ∈ (c.sort.toList.map (m.sortItem c)).flatMap Item.packages ↔
      c.sort.isSome = true ∧ p = sortPath := by
    cases c.sort <;> simp [packages_sortItem]
  unfold columnItems
  rw [List.flatMap_append, List.flatMap_append, List.mem_append, List.mem_append, hsort,
    List.flatMap_singleton, mem_packages_pluckItem]
  tauto

theorem mem_packages_columns :
    p ∈ (m.columns.flatMap m.columnItems).flatMap Item.packages ↔
      m.Sorts ∧ p = sortPath ∨ m.HoldsTime ∧ p = timePath := by
  unfold Sorts HoldsTime
  rw [List.flatMap_assoc, List.mem_flatMap]
  simp only [mem_packages_columnItems, and_or_left, exists_or, ← and_assoc, exists_and_right]

theorem packages_saveAllItem : (m.saveAllItem t).packages = [t.errorsPath] := by
  simp [saveAllItem]

theorem mem_packages_collectionItems :
    p ∈ (m.collectionItems t).flatMap Item.packages ↔
      m.primaryKey.entityType = .timestamp ∧ p = timePath ∨ p = t.errorsPath ∨
        m.Sorts ∧ p = sortPath ∨ m.HoldsTime ∧ p = timePath := by
  have hsave : p ∈ (if m.isReadOnly then [] else [m.saveAllItem t]).flatMap Item.packages →
      p = t.errorsPath := by
    split
    · simp
    · simp [packages_saveAllItem]
  have htypes : [Item.struct m.collectionInstanceName [.plain "values" (.slice m.instanceType)],
      .free ⟨"New" ++ m.collectionInstanceName, [], [m.collectionType]⟩
        [.ret [.addr (.composite (.named m.collectionInstanceName)
          [("values", .slice m.instanceType [])])]]].flatMap Item.packages = [] := by
    simp
  unfold collectionItems
  simp only [List.flatMap_append, List.mem_append, mem_packages_fixedMethods,
    mem_packages_columns, htypes, List.not_mem_nil]
  tauto

/-! ## The file -/

theorem mem_packages_items (h : m.Covers) :
    p ∈ (m.items t).flatMap Item.packages ↔ p ∈ m.imports t := by
  have hforwards := m.of_mem_packages_forwards t (p := p)
  have htakes : (∃ f ∈ m.finders, f.TakesTime) → m.HoldsTime := by
    rintro ⟨f, hf, htime⟩
    exact h.takesTime f hf htime
  have hkey : m.primaryKey.entityType = .timestamp → m.HoldsTime := by
    intro htime
    exact ⟨m.primaryKey, h.primaryKey, htime⟩
  unfold items modelItems
  simp only [List.flatMap_append, List.mem_append, mem_packages_fixedItems,
    mem_packages_instanceItems, mem_packages_collectionItems, mem_imports_iff]
  grind

theorem tightImports_source (h : m.Covers) : (m.source t).TightImports :=
  SourceFile.tightImports_ofItems fun _ => m.mem_packages_items t h

end Model

/-- The files of entities, registry and model import what they refer to, and nothing twice. -/
theorem Table.tightImports_sources (tb : Table) (t : Target) (entities : List Entity) :
    ((Entity.ofTable tb).source t).TightImports ∧
      (Entity.registrySource entities t).TightImports ∧
      ∀ m, Model.ofTable tb = .ok m → (m.source t).TightImports :=
  ⟨Entity.tightImports_source _ t, Entity.tightImports_registrySource t entities,
    fun m h => m.tightImports_source t (Model.covers_of_ofTable h)⟩

/-- The runtime and the library of errors may be one package, and even that of time. -/
theorem Table.tightImports_events :
    ∃ m, Model.ofTable Dao.eventsTable = .ok m ∧
      (m.source ⟨"", timePath, timePath⟩).imports = ["entity", "dao", sortPath, timePath] ∧
      (m.source ⟨"", timePath, timePath⟩).TightImports :=
  ⟨_, rfl, by decide +kernel,
    (Table.tightImports_sources Dao.eventsTable ⟨"", timePath, timePath⟩ []).2.2 _ rfl⟩

end Tablewright
