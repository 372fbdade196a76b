import Tablewright.Dao.Source
import Tablewright.Proofs.Code.Scope

/-! The scope of names in the file of a data access. All names are in scope. Saving a new row
defines the identifier that the database gave to the row, but it is read only to set a key that is
an integer, so for any other key the compiler refuses the file. -/

namespace Tablewright

open Code

namespace Dao

variable (d : Dao) (t : Target) {o : Occurrence} {x : String}

/-! ## Fragments -/

theorem mem_free_isUnsaved (h : x ∈ d.isUnsaved.free o) : x = "e" ∨ x = "false" := by
  rw [isUnsaved, Expr.free_eq, List.mem_append] at h
  rcases h with h | h
  · exact .inl (by simpa [keyField] using h)
  · exact .inr (mem_free_zeroValue h)

@[simp] theorem unused_isUnsaved : d.isUnsaved.unused = [] := by simp [isUnsaved, keyField]

@[simp] theorem bound_keyQuery : d.keyQuery.bound = ["b"] := rfl

@[simp] theorem mem_free_keyQuery : x ∈ d.keyQuery.free o ↔ x = "d" ∨ x = "e" := by
  simp [keyQuery, keyField]

@[simp] theorem unused_keyQuery : d.keyQuery.unused = [] := by simp [keyQuery, keyField]

@[simp] theorem bound_stamp (column : String) : (stamp column).bound = [] := rfl

@[simp] theorem mem_free_stamp {column : String} :
    x ∈ (stamp column).free o ↔ x = "e" ∨ x = "now" := by
  simp [stamp]

@[simp] theorem unused_stamp (column : String) : (stamp column).unused = [] := by simp [stamp]

theorem mem_free_updateMap (h : x ∈ d.updateMap.free o) : x = "e" ∨ x = "string" := by
  simp only [updateMap, Expr.free, Expr.freeOfEntries_eq_flatMap, List.flatMap_map] at h
  simp at h
  grind

@[simp] theorem unused_updateMap : d.updateMap.unused = [] := by
  simp [updateMap, List.flatMap_map]

/-! ## Saving -/

theorem mem_freeOf_insertBody (h : x ∈ Stmt.freeOf .any (d.insertBody t)) :
    x ∈ ["d", "e", "tx"] ∨ d.setsCreatedAt = true ∧ x = "now" ∨
      d.primaryKey.entityType.isInteger = true ∧ x = d.primaryKey.entityType.name := by
  simp [insertBody, keyField] at h
  simp
  grind

/-- The identifier of a new row is read only to set an integer key. -/
theorem unusedOf_insertBody :
    Stmt.unusedOf (d.insertBody t) =
      if d.primaryKey.entityType.isInteger then [] else ["id"] := by
  have hassigns : ∀ c : Bool, ∀ s : Stmt, s.bound = [] → s.unused = [] →
      ∀ s' ∈ (if c then [s] else []), s'.bound = [] ∧ s'.unused = [] := by
    intro c s hbound hunused
    split <;> simp [hbound, hunused]
  rw [insertBody, List.append_assoc, List.append_assoc, List.append_assoc,
    Stmt.unusedOf_append (hassigns d.setsUserId _ rfl (by simp)),
    Stmt.unusedOf_append (hassigns d.setsCreatedAt _ rfl (by simp))]
  split <;> simp [unread_cons, keyField]

theorem mem_freeOf_updateBody (h : x ∈ Stmt.freeOf .any (d.updateBody t)) :
    x ∈ ["d", "e", "tx", "string"] := by
  have hmap := @mem_free_updateMap d .any x
  simp [updateBody] at h
  simp
  grind

theorem unusedOf_updateBody : Stmt.unusedOf (d.updateBody t) = [] := by
  simp [updateBody, unread_cons]

theorem mem_predeclared_of_isInteger {e : EntityType} (h : e.isInteger = true) :
    e.name ∈ predeclared := by
  cases e <;> simp_all [EntityType.isInteger, EntityType.name, predeclared]

theorem mem_freeNames_saveItem (h : x ∈ (d.saveItem t).freeNames) : x ∈ predeclared := by
  have hunsaved := @mem_free_isUnsaved d .any x
  have hinsert := @mem_freeOf_insertBody d t x
  have hupdate := @mem_freeOf_updateBody d t x
  have hinteger := @mem_predeclared_of_isInteger d.primaryKey.entityType
  have hfalse : "false" ∈ predeclared := by decide
  have hstring : "string" ∈ predeclared := by decide
  simp [saveItem, takeTransaction, receiver, entitySignature] at h hinsert hupdate
  grind

/-- The time is read, because it is taken only to stamp the row. -/
theorem unusedNames_saveItem :
    (d.saveItem t).unusedNames = if d.primaryKey.entityType.isInteger then [] else ["id"] := by
  have hnow : d.setsCreatedAt = true → "now" ∈ Stmt.freeOf .read (d.insertBody t) := by
    intro hcreated
    simp [insertBody, hcreated]
  have htx : "tx" ∈ Stmt.freeOf .read (d.updateBody t) := by simp [updateBody]
  rw [saveItem, Item.unusedNames_method]
  cases hcreated : d.setsCreatedAt <;> cases hupdated : d.setsUpdatedAt <;>
    simp_all [takeTransaction, unread_cons, unusedOf_insertBody, unusedOf_updateBody]

/-! ## The other methods -/

theorem mem_freeNames_deleteItem (h : x ∈ (d.deleteItem t).freeNames) : x = "false" := by
  have hunsaved := @mem_free_isUnsaved d .any x
  simp [deleteItem, takeTransaction, receiver, entitySignature] at h
  grind

theorem unusedNames_deleteItem : (d.deleteItem t).unusedNames = [] := by
  simp [deleteItem, takeTransaction, unread_cons]

theorem freeNames_findsAllItem : (d.findsAllItem t).freeNames = [] := by
  refine List.eq_nil_iff_forall_not_mem.mpr fun x h => ?_
  simp [findsAllItem, takeTransaction, receiver, findsAllSignature, collectionType] at h
  grind

theorem unusedNames_findsAllItem : (d.findsAllItem t).unusedNames = [] := by
  simp [findsAllItem, takeTransaction, unread_cons]

theorem mem_free_conditions {lookup : Lookup} {args : List FinderArg} {query : Expr} :
    x ∈ (args.foldl (addCondition lookup) query).free o ↔
      x ∈ query.free o ∨ x ∈ args.map (·.name) := by
  induction args generalizing query with
  | nil => simp
  | cons a args ih =>
    rw [List.foldl_cons, ih]
    simp [addCondition, or_assoc]

theorem unused_conditions (lookup : Lookup) (args : List FinderArg) {query : Expr}
    (h : query.unused = []) : (args.foldl (addCondition lookup) query).unused = [] := by
  induction args generalizing query with
  | nil => exact h
  | cons a args ih =>
    rw [List.foldl_cons]
    exact ih (by simp [addCondition, h])

theorem mem_free_finderQuery {f : Finder} :
    x ∈ (finderQuery f).free o ↔ x = "d" ∨ x ∈ f.args.map (·.name) := by
  rw [finderQuery, mem_free_conditions]
  simp

@[simp] theorem unused_finderQuery (f : Finder) : (finderQuery f).unused = [] :=
  unused_conditions _ _ (by simp)

theorem mem_freeNames_finderItem {f : Finder} (h : x ∈ (d.finderItem t f).freeNames) :
    x = "false" := by
  have hunsaved := @mem_free_isUnsaved d .any x
  unfold finderItem at h
  cases hmany : f.returnsCollection <;>
    simp [hmany, takeTransaction, receiver, finderSignature, collectionType, entityType,
      mem_free_finderQuery, FinderArg.param] at h <;> grind

theorem unusedNames_finderItem (f : Finder) : (d.finderItem t f).unusedNames = [] := by
  unfold finderItem
  cases f.returnsCollection <;> simp [takeTransaction, unread_cons]

theorem mem_freeNames_constructorItem (h : x ∈ (d.constructorItem t).freeNames) :
    x = d.implName ∨ x = "error" := by
  unfold constructorItem at h
  cases hgetter : d.hasUserIdGetter <;>
    simp [hgetter, implValues, thunk, newQuery, newOwnerQuery, queryBuilder, transactionResults,
      Target.rapidashType] at h <;> grind

theorem unusedNames_constructorItem : (d.constructorItem t).unusedNames = [] := by
  unfold constructorItem
  cases hgetter : d.hasUserIdGetter <;> simp [hgetter, implValues, thunk, newQuery, newOwnerQuery]

/-! ## The file -/

theorem implName_mem_declared : d.implName ∈ (d.source t).declared :=
  List.mem_filterMap.mpr ⟨_, List.mem_cons_of_mem _ List.mem_cons_self, rfl⟩

/-- The items, and the table that they need to be for. -/
theorem mem_items_cases {item : Item} (h : item ∈ d.items t) :
    item ∈ [d.interfaceItem t, .struct d.implName (d.implFields t), d.constructorItem t] ∨
      d.isReadOnly = true ∧ item = d.findsAllItem t ∨
      d.isReadOnly = false ∧ item ∈ [d.saveItem t, d.deleteItem t] ∨
      ∃ f ∈ d.methods, item = d.finderItem t f := by
  simp only [items, List.mem_append, List.mem_map] at h
  rcases h with (h | h) | ⟨f, hf, rfl⟩
  · exact .inl h
  · split at h
    · next hreadOnly => exact .inr (.inl ⟨hreadOnly, List.mem_singleton.mp h⟩)
    · next hreadOnly => exact .inr (.inr (.inl ⟨Bool.eq_false_iff.mpr hreadOnly, h⟩))
  · exact .inr (.inr (.inr ⟨f, hf, rfl⟩))

theorem namesInScope_source : (d.source t).NamesInScope := by
  rw [SourceFile.namesInScope_iff]
  intro item hitem x hx
  have hfalse : "false" ∈ predeclared := by decide
  rcases d.mem_items_cases t hitem with hfixed | ⟨_, rfl⟩ | ⟨_, hwrite⟩ | ⟨f, _, rfl⟩
  · simp only [List.mem_cons, List.not_mem_nil, or_false] at hfixed
    rcases hfixed with rfl | rfl | rfl
    · cases hx
    · cases hx
    · rcases d.mem_freeNames_constructorItem t hx with rfl | rfl
      · exact .inr (d.implName_mem_declared t)
      · exact .inl (by decide)
  · rw [freeNames_findsAllItem] at hx
    cases hx
  · simp only [List.mem_cons, List.not_mem_nil, or_false] at hwrite
    rcases hwrite with rfl | rfl
    · exact .inl (d.mem_freeNames_saveItem t hx)
    · exact .inl (d.mem_freeNames_deleteItem t hx ▸ hfalse)
  · exact .inl (d.mem_freeNames_finderItem t hx ▸ hfalse)

theorem unusedNames_of_mem_items {item : Item} (h : item ∈ d.items t) :
    item.unusedNames = [] ∨ item = d.saveItem t ∧ d.isReadOnly = false := by
  rcases d.mem_items_cases t h with hfixed | ⟨_, rfl⟩ | ⟨hwritten, hwrite⟩ | ⟨f, _, rfl⟩
  · simp only [List.mem_cons, List.not_mem_nil, or_false] at hfixed
    rcases hfixed with rfl | rfl | rfl
    · exact .inl rfl
    · exact .inl rfl
    · exact .inl (d.unusedNames_constructorItem t)
  · exact .inl (d.unusedNames_findsAllItem t)
  · simp only [List.mem_cons, List.not_mem_nil, or_false] at hwrite
    rcases hwrite with rfl | rfl
    · exact .inr ⟨rfl, hwritten⟩
    · exact .inl (d.unusedNames_deleteItem t)
  · exact .inl (d.unusedNames_finderItem t f)

/-- Only saving leaves a variable unread: the identifier of a new row. -/
theorem unused_of_mem_functions {fn : Function} (h : fn ∈ (d.source t).functions) :
    fn.unused = [] ∨ fn.signature.name = "Save" ∧ fn.unused = ["id"] := by
  rcases d.unusedNames_of_mem_items t (SourceFile.mem_functions.mp h) with hunused | ⟨hsave, _⟩
  · exact .inl hunused
  · have hname : fn.signature.name = "Save" := by
      cases hsave
      rfl
    have hunused := d.unusedNames_saveItem t
    rw [← hsave] at hunused
    cases hinteger : d.primaryKey.entityType.isInteger with
    | false => exact .inr ⟨hname, by rwa [hinteger] at hunused⟩
    | true => exact .inl (by rwa [hinteger] at hunused)

theorem readsLocals_source_iff :
    (d.source t).ReadsLocals ↔
      d.isReadOnly = true ∨ d.primaryKey.entityType.isInteger = true := by
  rw [SourceFile.readsLocals_iff]
  constructor
  · intro h
    cases hreadOnly : d.isReadOnly with
    | true => exact .inl rfl
    | false =>
      have hitem : d.saveItem t ∈ d.items t := by simp [items, hreadOnly]
      have hunused := h _ hitem
      rw [unusedNames_saveItem] at hunused
      exact .inr (by simpa using hunused)
  · intro h item hitem
    rcases d.unusedNames_of_mem_items t hitem with hunused | ⟨rfl, hwritten⟩
    · exact hunused
    · rcases h with hreadOnly | hinteger
      · rw [hwritten] at hreadOnly
        cases hreadOnly
      · rw [unusedNames_saveItem, if_pos hinteger]

end Dao

end Tablewright
