import Tablewright.Dao.Source
import Tablewright.Proofs.Checks
import Tablewright.Proofs.Code.Packages
import Tablewright.Schema.Declaration

/-! The imports of a data access. Its file imports the package of time when saving stamps a row, but
a lookup by a point in time refers to that package as well. So the imports are tight exactly if no
such lookup stands in a file that imports the package for no other reason. -/

namespace Tablewright

open Code

/-- The lookup has an argument that is a point in time, or a sequence of them. -/
def Finder.TakesTime (f : Finder) : Prop := ∃ a ∈ f.args, a.entityType = .timestamp

theorem FinderArg.mem_packages_param {a : FinderArg} {p : String} :
    p ∈ a.param.packages ↔ a.entityType = .timestamp ∧ p = timePath := by
  unfold FinderArg.param
  split <;> simp

theorem FinderArg.mem_packages_params {args : List FinderArg} {p : String} :
    p ∈ (args.map (·.param)).flatMap Param.packages ↔
      (∃ a ∈ args, a.entityType = .timestamp) ∧ p = timePath := by
  rw [List.flatMap_map, List.mem_flatMap]
  simp only [FinderArg.mem_packages_param, ← and_assoc, exists_and_right]

namespace Dao

/-- Saving a row stamps a time. -/
def Stamps (d : Dao) : Prop :=
  d.isReadOnly = false ∧ (d.setsCreatedAt = true ∨ d.setsUpdatedAt = true)

/-- Some lookup takes a time. -/
def LooksUpTime (d : Dao) : Prop := ∃ f ∈ d.methods, f.TakesTime

variable (d : Dao) (t : Target) {p : String}

theorem mem_imports_iff :
    p ∈ d.imports t ↔
      p = t.packagePath entityPackage ∨ d.Stamps ∧ p = timePath ∨ p = t.errorsPath ∨
        p = t.rapidashPath := by
  have hstamps : p ∈ (if !d.isReadOnly && (d.setsCreatedAt || d.setsUpdatedAt) then [timePath]
      else []) ↔ d.Stamps ∧ p = timePath := by
    unfold Stamps
    split <;> simp_all
  unfold imports
  rw [List.mem_append, List.mem_append, hstamps]
  simp [or_assoc]

/-! ## What the items refer to -/

theorem mem_packages_finderSignature (f : Finder) :
    p ∈ (d.finderSignature t f).packages ↔
      p = t.packagePath entityPackage ∨ f.TakesTime ∧ p = timePath := by
  have hresult : (d.resultType t f).packages = [t.packagePath entityPackage] := by
    unfold resultType
    split <;> simp [entityType, collectionType]
  unfold finderSignature Signature.packages
  rw [List.mem_append, FinderArg.mem_packages_params]
  simp [hresult, Finder.TakesTime, or_comm]

theorem packages_findsAllSignature :
    (d.findsAllSignature t).packages = [t.packagePath entityPackage] := by
  simp [findsAllSignature, collectionType]

theorem packages_entitySignature (name : String) :
    (d.entitySignature t name).packages = [t.packagePath entityPackage] := by
  simp [entitySignature, entityType]

theorem mem_packages_interfaceItem :
    p ∈ (d.interfaceItem t).packages ↔
      p = t.packagePath entityPackage ∨ d.LooksUpTime ∧ p = timePath := by
  have hfixed : p ∈ (if d.isReadOnly then [d.findsAllSignature t]
      else [d.entitySignature t "Save", d.entitySignature t "Delete"]).flatMap
        Signature.packages ↔ p = t.packagePath entityPackage := by
    split
    · rw [List.flatMap_singleton, packages_findsAllSignature, List.mem_singleton]
    · rw [List.flatMap_cons, List.flatMap_singleton, packages_entitySignature,
        packages_entitySignature]
      simp
  have hlookups : p ∈ (d.methods.map (d.finderSignature t)).flatMap Signature.packages ↔
      ∃ f ∈ d.methods, p = t.packagePath entityPackage ∨ f.TakesTime ∧ p = timePath := by
    rw [List.flatMap_map, List.mem_flatMap]
    simp only [mem_packages_finderSignature]
  unfold interfaceItem
  rw [Item.packages_interface, List.flatMap_append, List.mem_append, hfixed, hlookups]
  constructor
  · rintro (h | ⟨f, hf, h | ⟨htime, h⟩⟩)
    · exact .inl h
    · exact .inl h
    · exact .inr ⟨⟨f, hf, htime⟩, h⟩
  · rintro (h | ⟨⟨f, hf, htime⟩, h⟩)
    · exact .inl h
    · exact .inr ⟨f, hf, .inr ⟨htime, h⟩⟩

theorem mem_packages_implStruct :
    p ∈ (Item.struct d.implName (d.implFields t)).packages ↔ p = t.rapidashPath := by
  cases h : d.hasUserIdGetter <;>
    simp [implFields, h, transactionResults, queryBuilder, userIdGetterType]

theorem mem_packages_constructorItem :
    p ∈ (d.constructorItem t).packages ↔ p = t.rapidashPath := by
  cases h : d.hasUserIdGetter <;>
    simp [constructorItem, implValues, h, thunk, newOwnerQuery, newQuery, transactionResults,
      queryBuilder, userIdGetterType]

@[simp] theorem packages_receiver : d.receiver.packages = [] := by simp [receiver]

@[simp] theorem packages_keyField : d.keyField.packages = [] := by simp [keyField]

@[simp] theorem packages_isUnsaved : d.isUnsaved.packages = [] := by simp [isUnsaved]

@[simp] theorem packages_keyQuery : d.keyQuery.packages = [] := by simp [keyQuery]

@[simp] theorem packages_stamp (column : String) : (stamp column).packages = [] := by simp [stamp]

@[simp] theorem packages_takeTransaction (values : List Expr) :
    (takeTransaction t values).flatMap Stmt.packages =
      values.flatMap Expr.packages ++ [t.errorsPath] := by
  simp [takeTransaction]

theorem mem_packages_findsAllItem :
    p ∈ (d.findsAllItem t).packages ↔ p = t.packagePath entityPackage ∨ p = t.errorsPath := by
  simp [findsAllItem, packages_findsAllSignature, collectionType]
  tauto

theorem mem_packages_insertBody :
    p ∈ (d.insertBody t).flatMap Stmt.packages ↔ p = t.errorsPath := by
  unfold insertBody
  simp only [List.flatMap_append, List.mem_append]
  split <;> split <;> split <;> simp

theorem packages_updateMap : d.updateMap.packages = [] := by
  simp [updateMap, List.flatMap_map]

theorem mem_packages_saveItem :
    p ∈ (d.saveItem t).packages ↔
      p = t.packagePath entityPackage ∨ p = t.errorsPath ∨
        (d.setsCreatedAt = true ∨ d.setsUpdatedAt = true) ∧ p = timePath := by
  have hnow : p ∈ (if d.setsCreatedAt || d.setsUpdatedAt then
      [Stmt.define ["now"] (.call (.qualified timePath "Now") [])] else []).flatMap
        Stmt.packages ↔ (d.setsCreatedAt = true ∨ d.setsUpdatedAt = true) ∧ p = timePath := by
    split <;> simp_all
  have hstamp : (if d.setsUpdatedAt then [stamp updatedAtColumn] else []).flatMap
      Stmt.packages = [] := by
    split <;> simp
  unfold saveItem
  simp only [Item.packages_method, List.flatMap_append, List.mem_append, hnow, hstamp,
    packages_entitySignature, List.flatMap_singleton, Stmt.packages, Stmt.packagesOf_eq_flatMap,
    mem_packages_insertBody]
  simp [updateBody, packages_updateMap]
  tauto

theorem mem_packages_deleteItem :
    p ∈ (d.deleteItem t).packages ↔ p = t.packagePath entityPackage ∨ p = t.errorsPath := by
  simp [deleteItem, packages_entitySignature]

theorem packages_finderQuery (f : Finder) : (finderQuery f).packages = [] := by
  have hstep : ∀ (args : List FinderArg) (query : Expr), query.packages = [] →
      (args.foldl (addCondition f.lookup) query).packages = [] := by
    intro args
    induction args with
    | nil => intro query h; exact h
    | cons a rest ih => intro query h; exact ih _ (by simp [addCondition, h])
  exact hstep f.args _ (by simp)

theorem mem_packages_finderItem (f : Finder) :
    p ∈ (d.finderItem t f).packages ↔
      p = t.packagePath entityPackage ∨ p = t.errorsPath ∨ f.TakesTime ∧ p = timePath := by
  unfold finderItem
  simp only [Item.packages_method, List.mem_append, mem_packages_finderSignature]
  split <;> simp [packages_finderQuery, entityType, collectionType] <;> tauto

/-! ## The file -/

theorem mem_packages_fixedMethods :
    p ∈ (if d.isReadOnly then [d.findsAllItem t] else [d.saveItem t, d.deleteItem t]).flatMap
        Item.packages ↔
      p = t.packagePath entityPackage ∨ p = t.errorsPath ∨ d.Stamps ∧ p = timePath := by
  unfold Stamps
  cases h : d.isReadOnly with
  | true => simp [mem_packages_findsAllItem]
  | false =>
    simp [mem_packages_saveItem, mem_packages_deleteItem]
    tauto

/-- The bodies of the lookups refer to nothing that their signatures and the other methods do
not. -/
theorem of_mem_packages_lookups
    (h : p ∈ (d.methods.map (d.finderItem t)).flatMap Item.packages) :
    p = t.packagePath entityPackage ∨ p = t.errorsPath ∨
      d.LooksUpTime ∧ p = timePath := by
  rw [List.flatMap_map, List.mem_flatMap] at h
  obtain ⟨f, hf, h⟩ := h
  rcases (d.mem_packages_finderItem t f).mp h with h | h | ⟨htime, h⟩
  · exact .inl h
  · exact .inr (.inl h)
  · exact .inr (.inr ⟨⟨f, hf, htime⟩, h⟩)

/-- The file refers to what it imports, and to the package of time if a lookup takes a time. -/
theorem mem_packages_items :
    p ∈ (d.items t).flatMap Item.packages ↔
      p ∈ d.imports t ∨ d.LooksUpTime ∧ p = timePath := by
  have hlookups := d.of_mem_packages_lookups t (p := p)
  unfold items
  rw [List.flatMap_append, List.flatMap_append, List.mem_append, List.mem_append,
    mem_packages_fixedMethods, mem_imports_iff]
  simp only [List.flatMap_cons, List.flatMap_nil, List.append_nil, List.mem_append,
    mem_packages_interfaceItem, mem_packages_implStruct, mem_packages_constructorItem]
  tauto

/-- What the file refers to is what it imports, but for the package of time. So the imports are
tight exactly if no lookup takes a time or the package is imported anyway. -/
theorem tightImports_iff (d : Dao) (t : Target) :
    (∀ p, p ∈ (d.source t).packages ↔
      p ∈ (d.source t).imports ∨ d.LooksUpTime ∧ p = timePath) ∧
    ((d.source t).TightImports ↔ (d.LooksUpTime → timePath ∈ (d.source t).imports)) := by
  have hpackages : ∀ p, p ∈ (d.source t).packages ↔
      p ∈ (d.source t).imports ∨ d.LooksUpTime ∧ p = timePath := by
    intro p
    unfold source
    rw [SourceFile.mem_imports_ofItems, ← d.mem_packages_items t]
    rfl
  refine ⟨hpackages, ?_, ?_⟩
  · intro h htime
    exact (h.mem_iff timePath).mp ((hpackages timePath).mpr (.inr ⟨htime, rfl⟩))
  · intro h
    refine ⟨?_, SourceFile.nodup_imports_ofItems⟩
    intro p
    rw [hpackages]
    constructor
    · rintro (hp | ⟨htime, rfl⟩)
      · exact hp
      · exact h htime
    · exact .inl

/-- Master data with a lookup by a point in time. -/
def events : Sql.CreateTable :=
  { name := [⟨"events", none⟩]
    columns := [
      ⟨⟨"id", none⟩, .integer "INT" none false, [.notNull]⟩,
      ⟨⟨"open_at", none⟩, .sized "DATETIME" none "", []⟩]
    constraints := [
      .primaryKey [⟨"id", none⟩],
      .index (some ⟨"open_at", none⟩) [⟨"open_at", none⟩]] }

def eventsTable : Table :=
  { name := "events"
    columns := [
      ⟨"id", "int", .int32, 0, false, false, true, none, true, [], []⟩,
      ⟨"open_at", "datetime", .timestamp, 0, false, false, false, none, false, [], ["open_at"]⟩]
    indexes := [
      ⟨"PRIMARY", true, true, ["id"]⟩,
      ⟨"open_at", false, false, ["open_at"]⟩]
    isReadOnly := true }

theorem ofCreate_events : Table.ofCreate events = .ok eventsTable :=
  Checks.eq_ok_of_toOption (by decide +kernel)

/-- The lookup `FindByOpenAt` takes a time, and the file does not import its package. -/
theorem events_lacks_time :
    Table.ofCreate events = .ok eventsTable ∧
      ∃ d, Dao.ofTable eventsTable = .ok d ∧
        timePath ∈ (d.source (.ofModule "example")).packages ∧
        timePath ∉ (d.source (.ofModule "example")).imports := by
  refine ⟨Checks.eq_ok_of_toOption (by decide +kernel), _, rfl, ?_, by decide +kernel⟩
  decide +kernel

end Dao

end Tablewright
