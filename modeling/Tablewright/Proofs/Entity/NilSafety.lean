import Tablewright.Proofs.Code.NilSafety
import Tablewright.Proofs.Entity.Comparisons

/-! The file of an entity goes through no timestamps: a codec hands them over as they are. -/

namespace Tablewright

open Code

namespace Entity

variable (e : Entity) (t : Target) {fn : Function}

/-- The functions of an entity give errors and a schema. -/
theorem timestampType_notMem_results (h : .func fn ∈ e.items t) :
    timestampType ∉ fn.signature.results := by
  simp only [items, List.mem_append, List.mem_ite_nil_left, List.mem_cons, List.not_mem_nil,
    or_false] at h
  rcases h with ((h | h) | ⟨_, h | h⟩) | h | h | h <;> cases h <;>
    simp [encodeSignature, decodeSignature, timestampType, TypeRef.error, Target.rapidashType]

/-- The only other type is that of the rows. -/
theorem not_hasElements_of_typeName {name : String} {type : TypeRef}
    (h : .typeName name type ∈ e.items t) : ¬ (e.visible t).HasElements type timestampType := by
  simp only [items, List.mem_append, List.mem_ite_nil_left, List.mem_cons, List.not_mem_nil,
    or_false] at h
  rcases h with ((h | h) | ⟨_, h | h⟩) | h | h | h
  all_goals cases h
  intro helements
  generalize htime : timestampType = element at helements
  cases helements
  exact pointer_named_ne _ htime.symm

/-- Among the entities nothing gives a timestamp, so that it is left to look at the file itself. -/
theorem withholds_timestampType {own : List Item} (hnames : ∀ name type, .typeName name type ∉ own)
    (hresults : ∀ fn, .func fn ∈ own → timestampType ∉ fn.signature.results)
    (hfields : ∀ name fields, .struct name fields ∈ own → ∀ f ∈ fields, f.type.HoldsNoTime) :
    (⟨own, t.packagePath entityPackage, e.items t⟩ : Visible).Withholds timestampType := by
  refine Visible.withholds_timestampType (packagePath_entityPackage_ne t)
    (fun name type h => absurd h (hnames name type)) ?results ?fields
  case results =>
    intro fn hfn
    rcases List.mem_append.mp hfn with hown | hentity
    · exact hresults fn hown
    · exact e.timestampType_notMem_results t hentity
  case fields =>
    intro name fields hstruct f hf
    rcases List.mem_append.mp hstruct with hown | hentity
    · exact hfields name fields hown f hf
    · obtain ⟨column, _, hcolumn⟩ := e.type_of_struct_mem_items t hentity f hf
      rw [hcolumn]
      exact holdsNoTime_valueType _

/-! ## The codecs -/

theorem after_putField (f : EntityField) (scope : Scope) : scope.after (putField f) = scope := rfl

theorem after_putKey (f : EntityField) (scope : Scope) : scope.after (putKey f) = scope := rfl

theorem after_getField (f : EntityField) (scope : Scope) : scope.after (getField f) = scope := rfl

theorem after_declareField (f : EntityField) (scope : Scope) :
    scope.after (declareField f) = scope := rfl

variable {e t} {w : Visible}

theorem avoidsTimestamps_encodeItem (h : .func fn = e.encodeItem t) :
    w.AvoidsTimestamps fn.uses := by
  cases h
  have he : w.NeverGives timestampType
      [[("e", .typed (.pointer (.named e.name))), ("enc", .typed (t.rapidashType "Encoder"))]]
      (.ident "e") := Visible.neverGives_pointer rfl
  have henc : w.NeverGives timestampType
      [[("e", .typed (.pointer (.named e.name))), ("enc", .typed (t.rapidashType "Encoder"))]]
      (.ident "enc") := Visible.neverGives_qualified rfl
  simp [Function.uses, Function.scope, receiver, encodeSignature,
    Stmt.usesOf_map after_putField, Stmt.usesOf_map after_putKey,
    Scope.foldl_after_map after_putField, Scope.foldl_after_map after_putKey, putField, putKey, he,
    henc]

theorem avoidsTimestamps_encodeCollectionItem (h : .func fn = e.encodeCollectionItem t) :
    (e.visible t).AvoidsTimestamps fn.uses := by
  cases h
  simp [Function.uses, Function.scope, collectionReceiver, encodeSignature]
  refine ⟨Visible.neverGives_pointer rfl, fun types hgives => ?row,
    Visible.neverGives_qualified rfl⟩
  case row =>
    obtain ⟨type, row, hrows, helements, rfl⟩ := (Visible.gives_element_iff rfl).mp hgives
    cases hrows with
    | deref hrows =>
      cases (Visible.gives_typed_iff rfl).mp hrows
      rw [List.mem_singleton]
      rintro rfl
      have htypes := Visible.hasElements_timestampType (packagePath_entityPackage_ne t)
        (fun _ _ => e.not_hasElements_of_typeName t) helements
      rcases htypes with hslice | ⟨_, hmap⟩
      · cases hslice
      · cases hmap

theorem avoidsTimestamps_decodeItem (h : .func fn = e.decodeItem t) :
    w.AvoidsTimestamps fn.uses := by
  cases h
  have he : w.NeverGives timestampType
      [[("e", .typed (.pointer (.named e.name))), ("dec", .typed (t.rapidashType "Decoder"))]]
      (.ident "e") := Visible.neverGives_pointer rfl
  have hdec : w.NeverGives timestampType
      [[("e", .typed (.pointer (.named e.name))), ("dec", .typed (t.rapidashType "Decoder"))]]
      (.ident "dec") := Visible.neverGives_qualified rfl
  simp [Function.uses, Function.scope, receiver, decodeSignature, Stmt.usesOf_map after_getField,
    Scope.foldl_after_map after_getField, getField, he, hdec]

theorem avoidsTimestamps_decodeCollectionItem (h : .func fn = e.decodeCollectionItem t) :
    w.AvoidsTimestamps fn.uses := by
  cases h
  simp [Function.uses, Function.scope, collectionReceiver, decodeSignature]
  exact ⟨Visible.neverGives_qualified rfl, Visible.neverGives_pointer rfl,
    Visible.neverGives_typed rfl (by simp [timestampType]), Visible.neverGives_qualified rfl,
    Visible.neverGives_pointer rfl⟩

theorem avoidsTimestamps_schemaItem (h : .func fn = e.schemaItem t) :
    w.AvoidsTimestamps fn.uses := by
  cases h
  simp [Function.uses, Function.scope, receiver, Stmt.usesOf_map after_declareField,
    declareField]
  intro f _
  exact Visible.neverGives_result rfl (Visible.neverGives_call_qualified (qualified_ne _ _))

theorem avoidsTimestamps_of_mem_items (h : .func fn ∈ e.items t) :
    (e.visible t).AvoidsTimestamps fn.uses := by
  simp only [items, List.mem_append, List.mem_ite_nil_left, List.mem_cons, List.not_mem_nil,
    or_false] at h
  rcases h with ((h | h) | ⟨_, h | h⟩) | h | h | h
  · cases h
  · cases h
  · exact avoidsTimestamps_encodeItem h
  · exact avoidsTimestamps_encodeCollectionItem h
  · exact avoidsTimestamps_decodeItem h
  · exact avoidsTimestamps_decodeCollectionItem h
  · exact avoidsTimestamps_schemaItem h

end Entity

end Tablewright
