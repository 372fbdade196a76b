import Tablewright.Proofs.Code.Uses

/-! Points in time that may be missing. They are pointers, so that to go through one is safe only
where it was tested. Most values that code goes through are of another type, and for these nothing
needs to be tested. -/

namespace Tablewright.Code

/-- A point in time that may be missing. -/
def timestampType : TypeRef := .pointer (.qualified timePath "Time")

theorem valueType_eq_timestampType_iff {e : EntityType} :
    e.valueType = timestampType ↔ e = .timestamp := by
  cases e <;> simp [EntityType.valueType, timestampType]

theorem pointer_named_ne (name : String) : .pointer (.named name) ≠ timestampType := by
  simp [timestampType]

theorem qualified_ne (package name : String) : .qualified package name ≠ timestampType := by
  simp [timestampType]

/-- A value of the type gives no timestamp when it is called, and has none as an element. -/
structure TypeRef.HoldsNoTime (type : TypeRef) : Prop where
  called : ∀ params results, type = .func params results → timestampType ∉ results
  slice : type ≠ .slice timestampType
  map : ∀ key, type ≠ .map key timestampType

theorem holdsNoTime_valueType (e : EntityType) : e.valueType.HoldsNoTime := by
  cases e <;> exact ⟨nofun, nofun, nofun⟩

theorem holdsNoTime_func {params results : List TypeRef} (h : timestampType ∉ results) :
    (TypeRef.func params results).HoldsNoTime := by
  refine ⟨?_, nofun, nofun⟩
  rintro _ _ ⟨⟩
  exact h

theorem holdsNoTime_pointer (type : TypeRef) : (TypeRef.pointer type).HoldsNoTime :=
  ⟨nofun, nofun, nofun⟩

theorem holdsNoTime_qualified (package name : String) :
    (TypeRef.qualified package name).HoldsNoTime := ⟨nofun, nofun, nofun⟩

theorem holdsNoTime_slice {element : TypeRef} (h : element ≠ timestampType) :
    (TypeRef.slice element).HoldsNoTime :=
  ⟨nofun, fun htype => h (TypeRef.slice.inj htype), nofun⟩

/-- The entities of a module are in another package than points in time. -/
theorem packagePath_entityPackage_ne (t : Target) : t.packagePath entityPackage ≠ timePath := by
  unfold Target.packagePath
  split
  · decide
  · intro h
    have hslash : '/' ∈ (Target.trimSlashes t.module ++ "/" ++ entityPackage).toList := by simp
    rw [h] at hslash
    revert hslash
    decide

theorem pointer_entity_ne (t : Target) (name : String) :
    .pointer (.qualified (t.packagePath entityPackage) name) ≠ timestampType := fun h =>
  packagePath_entityPackage_ne t (TypeRef.qualified.inj (TypeRef.pointer.inj h)).1

namespace Visible

variable {w : Visible} {fn : Function}

section Variables

variable {scope below : Scope} {x package name : String}

/-- A variable that points to a type of the file. -/
theorem neverGives_pointer (h : scope.find? x = some (.typed (.pointer (.named name)), below)) :
    w.NeverGives timestampType scope (.ident x) := neverGives_typed h (pointer_named_ne name)

/-- A variable with a type of another package. -/
theorem neverGives_qualified
    (h : scope.find? x = some (.typed (.qualified package name), below)) :
    w.NeverGives timestampType scope (.ident x) := neverGives_typed h (qualified_ne package name)

end Variables

/-- The function goes through a timestamp only where it is known not to be missing. -/
def NilSafe (w : Visible) (fn : Function) : Prop :=
  ∀ use ∈ fn.uses, w.Gives use.scope use.target [timestampType] → use.target ∈ use.known

/-- The function goes through no timestamp at all. -/
def AvoidsTimestamps (w : Visible) (uses : List Use) : Prop :=
  ∀ use ∈ uses, w.NeverGives timestampType use.scope use.target

theorem AvoidsTimestamps.nilSafe (h : w.AvoidsTimestamps fn.uses) : w.NilSafe fn :=
  fun use huse hgives => absurd List.mem_cons_self (h use huse _ hgives)

@[simp] theorem avoidsTimestamps_nil : w.AvoidsTimestamps [] := nofun

@[simp] theorem avoidsTimestamps_cons {use : Use} {uses : List Use} :
    w.AvoidsTimestamps (use :: uses) ↔
      w.NeverGives timestampType use.scope use.target ∧ w.AvoidsTimestamps uses :=
  List.forall_mem_cons

@[simp] theorem avoidsTimestamps_append {uses more : List Use} :
    w.AvoidsTimestamps (uses ++ more) ↔ w.AvoidsTimestamps uses ∧ w.AvoidsTimestamps more :=
  List.forall_mem_append

@[simp] theorem avoidsTimestamps_flatMap {α : Type} {f : α → List Use} {l : List α} :
    w.AvoidsTimestamps (l.flatMap f) ↔ ∀ a ∈ l, w.AvoidsTimestamps (f a) :=
  List.forall_mem_flatMap

/-- Timestamps are elements of sequences and maps that are written as such. -/
theorem hasElements_timestampType (hpath : w.entityPath ≠ timePath)
    (hnames : ∀ name type, .typeName name type ∈ w.own → ¬ w.HasElements type timestampType)
    {type : TypeRef} (h : w.HasElements type timestampType) :
    type = .slice timestampType ∨ ∃ key, type = .map key timestampType := by
  generalize htime : timestampType = element at h
  cases h with
  | slice => exact .inl rfl
  | map key => exact .inr ⟨key, rfl⟩
  | named hname helements => exact absurd (htime ▸ helements) (hnames _ _ hname)
  | entities => exact absurd (TypeRef.qualified.inj (TypeRef.pointer.inj htime)).1.symm hpath

theorem withholds_timestampType (hpath : w.entityPath ≠ timePath)
    (hnames : ∀ name type, .typeName name type ∈ w.own → ¬ w.HasElements type timestampType)
    (hresults : ∀ fn, .func fn ∈ w.own ++ w.entities → timestampType ∉ fn.signature.results)
    (hfields : ∀ name fields, .struct name fields ∈ w.own ++ w.entities → ∀ f ∈ fields,
      f.type.HoldsNoTime) : w.Withholds timestampType where
  results := hresults
  held name fields hstruct f hf := (hfields name fields hstruct f hf).called
  elements name fields hstruct f hf helements := by
    have hholds := hfields name fields hstruct f hf
    rcases hasElements_timestampType hpath hnames helements with hslice | ⟨key, hmap⟩
    · exact hholds.slice hslice
    · exact hholds.map key hmap

end Visible

end Tablewright.Code
