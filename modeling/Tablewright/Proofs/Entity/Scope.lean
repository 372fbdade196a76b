import Tablewright.Entity.Source
import Tablewright.Proofs.Code.Scope

/-! The scope of names in the file of an entity. Its codecs name their parameters, the type of the
record and a built-in function, and they read all variables that they introduce. -/

namespace Tablewright

open Code

namespace Entity

variable (e : Entity) (t : Target) {o : Occurrence} {x : String}

/-! ## The codec of one field -/

@[simp] theorem bound_putField (f : EntityField) : (putField f).bound = [] := rfl

@[simp] theorem mem_free_putField {f : EntityField} :
    x ∈ (putField f).free o ↔ x = "enc" ∨ x = "e" := by
  simp [putField]

@[simp] theorem unused_putField (f : EntityField) : (putField f).unused = [] := by simp [putField]

@[simp] theorem bound_putKey (f : EntityField) : (putKey f).bound = [] := rfl

theorem mem_free_putKey {f : EntityField} (h : x ∈ (putKey f).free o) :
    x = "enc" ∨ x = "e" ∨ x = "false" := by
  simp [putKey] at h
  have hzero := @mem_free_zeroValue o x f.entityType
  grind

@[simp] theorem unused_putKey (f : EntityField) : (putKey f).unused = [] := by simp [putKey]

@[simp] theorem bound_getField (f : EntityField) : (getField f).bound = [] := rfl

@[simp] theorem mem_free_getField {f : EntityField} :
    x ∈ (getField f).free o ↔ x = "e" ∨ x = "dec" := by
  simp [getField]

@[simp] theorem unused_getField (f : EntityField) : (getField f).unused = [] := by simp [getField]

@[simp] theorem bound_declareField (f : EntityField) : (declareField f).bound = [] := rfl

@[simp] theorem mem_free_declareField {f : EntityField} :
    x ∈ (declareField f).free o ↔ x = "s" := by
  simp [declareField]

@[simp] theorem unused_declareField (f : EntityField) : (declareField f).unused = [] := by
  simp [declareField]

/-! ## The methods -/

theorem mem_freeNames_encodeItem (h : x ∈ (e.encodeItem t).freeNames) : x = "false" := by
  have hkey : x ∈ Stmt.freeOf .any (e.primaryKey?.toList.map putKey) →
      x = "enc" ∨ x = "e" ∨ x = "false" := by
    rw [Stmt.mem_freeOf_map bound_putKey]
    rintro ⟨f, _, hx⟩
    exact mem_free_putKey hx
  simp [encodeItem, receiver, encodeSignature, Stmt.mem_freeOf_map bound_putField] at h
  grind

theorem unusedNames_encodeItem : (e.encodeItem t).unusedNames = [] := by
  rw [encodeItem, Item.unusedNames_method, List.append_assoc,
    Stmt.unusedOf_map_append bound_putKey unused_putKey,
    Stmt.unusedOf_map_append bound_putField unused_putField]
  simp

theorem freeNames_encodeCollectionItem : (e.encodeCollectionItem t).freeNames = [] := by
  refine List.eq_nil_iff_forall_not_mem.mpr fun x h => ?_
  simp [encodeCollectionItem, collectionReceiver, encodeSignature] at h
  grind

theorem unusedNames_encodeCollectionItem : (e.encodeCollectionItem t).unusedNames = [] := by
  simp [encodeCollectionItem, unread_cons]

theorem freeNames_decodeItem : (e.decodeItem t).freeNames = [] := by
  refine List.eq_nil_iff_forall_not_mem.mpr fun x h => ?_
  simp [decodeItem, receiver, decodeSignature, Stmt.mem_freeOf_map bound_getField] at h
  grind

theorem unusedNames_decodeItem : (e.decodeItem t).unusedNames = [] := by
  rw [decodeItem, Item.unusedNames_method, Stmt.unusedOf_map_append bound_getField unused_getField]
  simp

theorem mem_freeNames_decodeCollectionItem (h : x ∈ (e.decodeCollectionItem t).freeNames) :
    x = "make" ∨ x = e.name := by
  simp [decodeCollectionItem, collectionReceiver, decodeSignature] at h
  grind

theorem unusedNames_decodeCollectionItem : (e.decodeCollectionItem t).unusedNames = [] := by
  simp [decodeCollectionItem, unread_cons]

theorem freeNames_schemaItem : (e.schemaItem t).freeNames = [] := by
  refine List.eq_nil_iff_forall_not_mem.mpr fun x h => ?_
  simp [schemaItem, receiver, Stmt.mem_freeOf_map bound_declareField] at h
  grind

theorem unusedNames_schemaItem : (e.schemaItem t).unusedNames = [] := by
  rw [schemaItem, Item.unusedNames_method, List.append_assoc, List.singleton_append,
    Stmt.unusedOf_cons, Stmt.unusedOf_map_append bound_declareField unused_declareField]
  simp [unread_cons]

/-! ## The file -/

theorem wellScoped_of_mem_items {item : Item} (h : item ∈ e.items t) :
    item.WellScoped [e.name] := by
  simp only [items, List.mem_append, List.mem_ite_nil_left, List.mem_cons, List.not_mem_nil,
    or_false] at h
  rcases h with ((rfl | rfl) | ⟨_, rfl | rfl⟩) | rfl | rfl | rfl
  · exact ⟨nofun, rfl⟩
  · exact ⟨nofun, rfl⟩
  · refine ⟨fun x hx => .inl ?_, e.unusedNames_encodeItem t⟩
    rw [e.mem_freeNames_encodeItem t hx]
    decide
  · exact ⟨by simp [freeNames_encodeCollectionItem], e.unusedNames_encodeCollectionItem t⟩
  · exact ⟨by simp [freeNames_decodeItem], e.unusedNames_decodeItem t⟩
  · refine ⟨fun x hx => ?_, e.unusedNames_decodeCollectionItem t⟩
    rcases e.mem_freeNames_decodeCollectionItem t hx with rfl | rfl
    · exact .inl (by decide)
    · exact .inr List.mem_cons_self
  · exact ⟨by simp [freeNames_schemaItem], e.unusedNames_schemaItem t⟩

theorem namesInScope_source : (e.source t).NamesInScope := by
  refine SourceFile.namesInScope_of_wellScoped (fun _ => e.wellScoped_of_mem_items t) ?_
  rw [List.forall_mem_singleton]
  exact List.mem_filterMap.mpr ⟨_, List.mem_cons_self, rfl⟩

theorem readsLocals_source : (e.source t).ReadsLocals :=
  SourceFile.readsLocals_iff.mpr fun _ hitem => (e.wellScoped_of_mem_items t hitem).reads

end Entity

end Tablewright
