import Tablewright.Entity.Source
import Tablewright.Proofs.Code.Comparisons

/-! The comparisons in the file of an entity. The encoder tests whether the identifier is assigned,
and everything else that is compared is an error. -/

namespace Tablewright

open Code

namespace Entity

variable (e : Entity) (t : Target)

/-- What the file of the entity sees. -/
def visible : Visible := ⟨e.items t, t.packagePath entityPackage, e.items t⟩

theorem structItem_mem_items : e.structItem ∈ e.items t := by simp [items]

/-- A field of the record. -/
theorem field_mem_structItem {f : EntityField} (h : f ∈ e.fields) :
    ∃ fields tags, e.structItem = .struct e.name fields ∧
      ⟨some f.name, f.entityType.valueType, tags⟩ ∈ fields :=
  ⟨_, _, rfl, List.mem_map.mpr ⟨f, h, rfl⟩⟩

/-- The record is the only struct. -/
theorem eq_structItem_of_mem_items {name : String} {fields : List Field}
    (h : .struct name fields ∈ e.items t) : .struct name fields = e.structItem := by
  simpa [items, encodeItem, encodeCollectionItem, decodeItem, decodeCollectionItem, schemaItem,
    Item.method] using h

/-- The fields of the record hold values of columns. -/
theorem type_of_struct_mem_items {name : String} {fields : List Field}
    (h : .struct name fields ∈ e.items t) :
    ∀ f ∈ fields, ∃ column ∈ e.fields, f.type = column.entityType.valueType := by
  cases e.eq_structItem_of_mem_items t h
  intro f hf
  obtain ⟨column, hcolumn, rfl⟩ := List.mem_map.mp hf
  exact ⟨column, hcolumn, rfl⟩

@[simp] theorem comparisons_putField (f : EntityField) : (putField f).comparisons = [] := by
  simp [putField, Expr.method]

@[simp] theorem comparisons_putKey (f : EntityField) :
    (putKey f).comparisons = [(.field (.ident "e") f.name, f.entityType.zeroValue)] := by
  simp [putKey, Expr.ne, Expr.compared?]

@[simp] theorem comparisons_getField (f : EntityField) : (getField f).comparisons = [] := by
  simp [getField, Expr.method]

@[simp] theorem comparisons_declareField (f : EntityField) : (declareField f).comparisons = [] := by
  simp [declareField, Expr.method]

/-- Every function compares values that can be compared. -/
theorem compares_of_mem_functions {fn : Function} (h : fn ∈ (e.source t).functions) :
    (e.visible t).Compares fn := by
  have hitem : .func fn ∈ e.items t := SourceFile.mem_functions.mp h
  simp only [items, List.mem_append, List.mem_ite_nil_left, List.mem_cons, List.not_mem_nil,
    or_false] at hitem
  intro operands hoperands
  rw [Function.comparisons_eq] at hoperands
  rcases hitem with ((hitem | hitem) | ⟨_, hitem | hitem⟩) | hitem | hitem | hitem
  · cases hitem
  · cases hitem
  · cases hitem
    have hkey : ∃ f, e.primaryKey? = some f ∧
        operands = (.field (.ident "e") f.name, f.entityType.zeroValue) := by
      simpa [List.flatMap_map, Expr.method] using hoperands
    obtain ⟨f, hf, rfl⟩ := hkey
    obtain ⟨fields, tags, hstruct, hfield⟩ :=
      e.field_mem_structItem (List.mem_of_find?_eq_some hf)
    exact Visible.admits_zeroValue (.field (.receiver rfl)
      (.own (hstruct ▸ e.structItem_mem_items t) hfield))
  · cases hitem
    obtain rfl : operands = (.ident "err", .nil) := by
      simpa [Expr.method, Expr.deref] using hoperands
    exact Visible.admits_nil _
  · cases hitem
    simp [List.flatMap_map, Expr.method] at hoperands
  · cases hitem
    obtain rfl : operands = (.ident "err", .nil) := by
      simpa [Expr.method, Expr.deref, Expr.addr] using hoperands
    exact Visible.admits_nil _
  · cases hitem
    simp [List.flatMap_map] at hoperands

/-- Where the entities of a table are seen, they have a field for every column. -/
theorem hasField_of_mem_columns {tb : Table} {w : Visible} {c : Column}
    (hw : w.entities = (ofTable tb).items t) (hc : c ∈ tb.columns) :
    w.HasField (.qualified w.entityPath (Names.entity tb.name)) (Names.field c.name)
      c.entityType.valueType := by
  obtain ⟨fields, tags, hstruct, hfield⟩ :=
    (ofTable tb).field_mem_structItem (List.mem_map_of_mem hc)
  have hmem : .struct (ofTable tb).name fields ∈ w.entities := by
    rw [hw, ← hstruct]
    exact (ofTable tb).structItem_mem_items t
  exact .entity hmem hfield

end Entity

end Tablewright
