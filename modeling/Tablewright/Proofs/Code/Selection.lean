import Tablewright.Proofs.Code.Comparisons

/-! What a selection reaches. A type has the fields and the methods that are declared for it, and
those of the types that its struct embeds. A name that is declared more than once stands for what is
embedded least deep, and whatever is deeper is hidden. -/

namespace Tablewright.Code

/-- The name of a type, which a pointer to it shares. -/
def TypeRef.baseName? : TypeRef → Option String
  | .named name | .qualified _ name => some name
  | .pointer target => target.baseName?
  | _ => none

namespace Field

/-- The name under which a field is selected. An embedded type goes by its own name. -/
def selector? (f : Field) : Option String :=
  match f.name with
  | some name => some name
  | none => f.type.baseName?

/-- The type that a field embeds, itself or by a pointer. -/
def embeds? (f : Field) : Option TypeRef :=
  match f.name, f.type with
  | some _, _ => none
  | none, .pointer target => some target
  | none, type => some type

end Field

namespace Visible

variable (w : Visible)

/-- The type is declared as a struct with these fields. -/
inductive IsStruct : TypeRef → List Field → Prop
  | own {name : String} {fields : List Field} :
    .struct name fields ∈ w.own → IsStruct (.named name) fields
  | entity {name : String} {fields : List Field} :
    .struct name fields ∈ w.entities → IsStruct (.qualified w.entityPath name) fields

/-- The function is a method of the type. -/
inductive IsMethod : TypeRef → Function → Prop
  | own {name : String} {fn : Function} :
    .func fn ∈ w.own → fn.isMethodOf name = true → IsMethod (.named name) fn
  | entity {name : String} {fn : Function} :
    .func fn ∈ w.entities → fn.isMethodOf name = true →
      IsMethod (.qualified w.entityPath name) fn

/-- A field or a method of this name is declared for the type. -/
inductive Declares : TypeRef → String → Prop
  | field {type : TypeRef} {fields : List Field} {f : Field} {name : String} :
    w.IsStruct type fields → f ∈ fields → f.selector? = some name → Declares type name
  | method {type : TypeRef} {fn : Function} :
    w.IsMethod type fn → Declares type fn.signature.name

/-- The second type is embedded in the first, so many structs deep. -/
inductive Embeds : Nat → TypeRef → TypeRef → Prop
  | self (type : TypeRef) : Embeds 0 type type
  | through {type target inner : TypeRef} {fields : List Field} {f : Field} {depth : Nat} :
    w.IsStruct type fields → f ∈ fields → f.embeds? = some target → Embeds depth target inner →
      Embeds (depth + 1) type inner

/-- Selected from the first type, the name stands for what is declared for the second: nothing of
that name is less deep. -/
def Selects (type : TypeRef) (name : String) (owner : TypeRef) : Prop :=
  ∃ depth, w.Embeds depth type owner ∧ w.Declares owner name ∧
    ∀ other < depth, ∀ inner, w.Embeds other type inner → ¬ w.Declares inner name

/-- Selected from the first type, the name stands for a field of the second, with this type. -/
def ReachesField (type : TypeRef) (name : String) (owner fieldType : TypeRef) : Prop :=
  w.Selects type name owner ∧ ∃ fields, w.IsStruct owner fields ∧
    ∃ f ∈ fields, f.selector? = some name ∧ f.type = fieldType

variable {w}

/-- A field that the type has itself. -/
theorem reachesField_self {type : TypeRef} {fields : List Field} {f : Field} {name : String}
    (hstruct : w.IsStruct type fields) (hf : f ∈ fields) (hname : f.selector? = some name) :
    w.ReachesField type name type f.type :=
  ⟨⟨0, .self type, .field hstruct hf hname, nofun⟩, fields, hstruct, f, hf, hname, rfl⟩

/-- A field of a type that is embedded, unless the type has a member of this name itself. -/
theorem reachesField_embedded_iff {type inner : TypeRef} {fields innerFields : List Field}
    {f field : Field} {name : String} (hne : inner ≠ type) (hstruct : w.IsStruct type fields)
    (hf : f ∈ fields) (hembeds : f.embeds? = some inner) (hinner : w.IsStruct inner innerFields)
    (hfield : field ∈ innerFields) (hname : field.selector? = some name) :
    w.ReachesField type name inner field.type ↔ ¬ w.Declares type name := by
  constructor
  · rintro ⟨⟨depth, hdepth, _, hleast⟩, _⟩ hdeclares
    cases depth with
    | zero =>
      cases hdepth
      exact hne rfl
    | succ depth => exact hleast 0 (Nat.succ_pos _) type (.self type) hdeclares
  · intro hdeclares
    refine ⟨⟨1, .through hstruct hf hembeds (.self inner), .field hinner hfield hname, ?_⟩,
      innerFields, hinner, field, hfield, hname, rfl⟩
    intro other hother declaring hdeclaring
    obtain rfl := Nat.lt_one_iff.mp hother
    cases hdeclaring
    exact hdeclares

end Visible

end Tablewright.Code
