import Tablewright.Entity.Source
import Tablewright.Proofs.Code.Packages

/-! The imports of an entity and of the registry. An entity refers to the package of time exactly if
one of its fields is a point in time; codecs and schema refer to the runtime only. -/

namespace Tablewright.Entity

open Code

variable (e : Entity) (t : Target) {p : String}

theorem hasTimestamp_iff : e.hasTimestamp = true ↔ ∃ f ∈ e.fields, f.entityType = .timestamp := by
  simp [hasTimestamp]

theorem mem_imports_iff :
    p ∈ e.imports t ↔
      p = t.errorsPath ∨ p = t.rapidashPath ∨ e.hasTimestamp = true ∧ p = timePath := by
  unfold imports
  split <;> simp_all

/-! ## What the items refer to -/

@[simp] theorem packages_receiver : e.receiver.packages = [] := by simp [receiver]

@[simp] theorem packages_collectionReceiver : e.collectionReceiver.packages = [] := by
  simp [collectionReceiver]

@[simp] theorem packages_putField (f : EntityField) : (putField f).packages = [] := by
  simp [putField]

@[simp] theorem packages_putKey (f : EntityField) : (putKey f).packages = [] := by simp [putKey]

@[simp] theorem packages_getField (f : EntityField) : (getField f).packages = [] := by
  simp [getField]

@[simp] theorem packages_declareField (f : EntityField) : (declareField f).packages = [] := by
  simp [declareField]

@[simp] theorem packages_encodeSignature :
    (encodeSignature t).packages = [t.rapidashPath] := by
  simp [encodeSignature]

@[simp] theorem packages_decodeSignature :
    (decodeSignature t).packages = [t.rapidashPath] := by
  simp [decodeSignature]

theorem mem_packages_structItem :
    p ∈ e.structItem.packages ↔ e.hasTimestamp = true ∧ p = timePath := by
  rw [hasTimestamp_iff]
  simp only [structItem, Item.packages_struct, List.flatMap_map, List.mem_flatMap,
    Field.packages_mk, mem_packages_valueType, ← and_assoc, exists_and_right]

theorem packages_encodeItem : (e.encodeItem t).packages = [t.rapidashPath] := by
  simp [encodeItem, List.flatMap_map]

theorem packages_encodeCollectionItem :
    (e.encodeCollectionItem t).packages = [t.rapidashPath, t.errorsPath] := by
  simp [encodeCollectionItem]

theorem packages_decodeItem : (e.decodeItem t).packages = [t.rapidashPath] := by
  simp [decodeItem, List.flatMap_map]

theorem packages_decodeCollectionItem :
    (e.decodeCollectionItem t).packages = [t.rapidashPath, t.errorsPath] := by
  simp [decodeCollectionItem]

theorem packages_schemaItem :
    (e.schemaItem t).packages = [t.rapidashPath, t.rapidashPath] := by
  simp [schemaItem, List.flatMap_map]

/-! ## The files -/

theorem mem_packages_items : p ∈ (e.items t).flatMap Item.packages ↔ p ∈ e.imports t := by
  have hencoders : p ∈ (if e.isReadOnly then [] else
      [e.encodeItem t, e.encodeCollectionItem t]).flatMap Item.packages →
        p = t.rapidashPath ∨ p = t.errorsPath := by
    split
    · simp
    · simp [packages_encodeItem, packages_encodeCollectionItem]
  unfold items
  rw [List.flatMap_append, List.flatMap_append, List.mem_append, List.mem_append, mem_imports_iff]
  simp only [List.flatMap_cons, List.flatMap_nil, List.append_nil, List.mem_append,
    mem_packages_structItem, packages_decodeItem, packages_decodeCollectionItem,
    packages_schemaItem, Item.packages_typeName, TypeRef.packages, List.mem_cons, List.not_mem_nil]
  tauto

theorem tightImports_source : (e.source t).TightImports :=
  SourceFile.tightImports_ofItems fun _ => e.mem_packages_items t

theorem packages_registryItem (name : String) (entities : List Entity) :
    (registryItem name entities).packages = [] := by
  simp [registryItem, List.flatMap_map]

theorem tightImports_registrySource (entities : List Entity) :
    (registrySource entities t).TightImports := by
  refine SourceFile.tightImports_ofItems fun p => ?_
  simp [packages_registryItem]

end Tablewright.Entity
