import Tablewright.Proofs.Code.Selection

/-! The types of expressions in code. A variable has the type that it was declared with, or that of
the value it was defined as, and everything else goes by the declarations that are visible. What
other packages declare is not known, so what they give has no type here. -/

namespace Tablewright.Code

/-! ## Scopes -/

/-- What is known of a variable. -/
inductive Binding
  | typed (type : TypeRef)
  /-- One of the values of an expression, by its position. -/
  | result (value : Expr) (position : Nat)
  /-- An element of a sequence. -/
  | element (source : Expr)

/-- The variables in scope, those of the innermost block first. -/
abbrev Scope := List (List (String × Binding))

namespace Scope

/-- What is known of a variable, and the scope in which it was introduced. -/
def find? (x : String) : Scope → Option (Binding × Scope)
  | [] => none
  | block :: outer =>
    match block.lookup x with
    | some binding => some (binding, outer)
    | none => find? x outer

/-- The scope behind a statement. -/
def after (scope : Scope) : Stmt → Scope
  | .define names value => (names.zipIdx.map fun (x, n) => (x, .result value n)) :: scope
  | .declare x type => [(x, .typed type)] :: scope
  | _ => scope

/-- The scope behind the statement before a condition. -/
def afterInit (scope : Scope) : Option Stmt → Scope
  | some s => scope.after s
  | none => scope

/-- The scope of the body of a function, with its parameters. -/
def ofParams (params : List Param) (scope : Scope) : Scope :=
  params.map (fun p => (p.name, .typed p.type)) :: scope

end Scope

/-! ## Types -/

/-- What a type points to, if it is a pointer: fields and methods are selected through it. -/
def TypeRef.target : TypeRef → TypeRef
  | .pointer type => type
  | type => type

namespace Visible

variable (w : Visible)

/-- The values of the first type are sequences or maps of values of the second. -/
inductive HasElements : TypeRef → TypeRef → Prop
  | slice (element : TypeRef) : HasElements (.slice element) element
  | map (key value : TypeRef) : HasElements (.map key value) value
  | named {name : String} {type element : TypeRef} :
    .typeName name type ∈ w.own → HasElements type element → HasElements (.named name) element
  /-- Rows of the package of entities, seen from another package. -/
  | entities {name row : String} : .typeName name (.slice (.pointer (.named row))) ∈ w.entities →
    HasElements (.qualified w.entityPath name) (.pointer (.qualified w.entityPath row))

/-- The types of the values that an expression gives. -/
inductive Gives : Scope → Expr → List TypeRef → Prop
  | declared {scope below : Scope} {x : String} {type : TypeRef} :
    scope.find? x = some (.typed type, below) → Gives scope (.ident x) [type]
  | defined {scope below : Scope} {x : String} {value : Expr} {n : Nat} {types : List TypeRef}
      {type : TypeRef} :
    scope.find? x = some (.result value n, below) → Gives below value types →
      types[n]? = some type → Gives scope (.ident x) [type]
  | element {scope below : Scope} {x : String} {source : Expr} {type element : TypeRef} :
    scope.find? x = some (.element source, below) → Gives below source [type] →
      w.HasElements type element → Gives scope (.ident x) [element]
  | field {scope : Scope} {base : Expr} {name : String} {type owner fieldType : TypeRef} :
    Gives scope base [type] → w.ReachesField type.target name owner fieldType →
      Gives scope (.field base name) [fieldType]
  | method {scope : Scope} {base : Expr} {type owner : TypeRef} {fn : Function}
      {args : List Expr} :
    Gives scope base [type] → w.Selects type.target fn.signature.name owner →
      w.IsMethod owner fn →
      Gives scope (.call (.field base fn.signature.name) args) fn.signature.results
  | function {scope : Scope} {fn : Function} {args : List Expr} :
    scope.find? fn.signature.name = none → .func fn ∈ w.own → fn.receiver = none →
      Gives scope (.call (.ident fn.signature.name) args) fn.signature.results
  /-- A function that is held by a variable or a field. -/
  | applied {scope : Scope} {callee : Expr} {args : List Expr} {params results : List TypeRef} :
    Gives scope callee [.func params results] → Gives scope (.call callee args) results
  | appended {scope : Scope} {first : Expr} {rest : List Expr} {type : TypeRef} :
    Gives scope first [type] → Gives scope (.call (.ident "append") (first :: rest)) [type]
  | made {scope : Scope} {type : TypeRef} {args : List Expr} :
    Gives scope (.call (.ident "make") (.type type :: args)) [type]
  | length {scope : Scope} {e : Expr} : Gives scope (.call (.ident "len") [e]) [.named "int"]
  | converted {scope : Scope} {e : Expr} {name : String} :
    name ∈ numberTypes → Gives scope (.call (.ident name) [e]) [.named name]
  | now {scope : Scope} :
    Gives scope (.call (.qualified timePath "Now") []) [.qualified timePath "Time"]
  | index {scope : Scope} {base position : Expr} {type element : TypeRef} :
    Gives scope base [type] → w.HasElements type element →
      Gives scope (.index base position) [element]
  | deref {scope : Scope} {e : Expr} {type : TypeRef} :
    Gives scope e [.pointer type] → Gives scope (.deref e) [type]
  | addr {scope : Scope} {e : Expr} {type : TypeRef} :
    Gives scope e [type] → Gives scope (.addr e) [.pointer type]
  | not {scope : Scope} {e : Expr} : Gives scope (.not e) [.named "bool"]
  | test {scope : Scope} {left right : Expr} {op : BinaryOp} :
    Gives scope (.binary left op right) [.named "bool"]
  | paren {scope : Scope} {e : Expr} {types : List TypeRef} :
    Gives scope e types → Gives scope (.paren e) types
  | str {scope : Scope} (value : String) : Gives scope (.str value) [.named "string"]
  | int {scope : Scope} (value : Int) {name : String} :
    name ∈ numberTypes → Gives scope (.int value) [.named name]
  | composite {scope : Scope} {type : TypeRef} {fields : List (String × Expr)} :
    Gives scope (.composite type fields) [type]
  | slice {scope : Scope} {element : TypeRef} {elements : List Expr} :
    Gives scope (.slice element elements) [.slice element]
  | map {scope : Scope} {key value : TypeRef} {entries : List (Expr × Expr)} :
    Gives scope (.map key value entries) [.map key value]
  | func {scope : Scope} {params : List Param} {results : List TypeRef} {body : List Stmt} :
    Gives scope (.func params results body) [.func (params.map (·.type)) results]

end Visible

/-! ## Variables -/

namespace Scope

variable {scope : Scope}

@[simp] theorem after_define (names : List String) (value : Expr) :
    scope.after (.define names value) =
      (names.zipIdx.map fun (x, n) => (x, .result value n)) :: scope := rfl

@[simp] theorem after_declare (x : String) (type : TypeRef) :
    scope.after (.declare x type) = [(x, .typed type)] :: scope := rfl

@[simp] theorem after_expr (e : Expr) : scope.after (.expr e) = scope := rfl

@[simp] theorem after_assign (target value : Expr) : scope.after (.assign target value) = scope :=
  rfl

@[simp] theorem after_ret (values : List Expr) : scope.after (.ret values) = scope := rfl

@[simp] theorem after_when (init : Option Stmt) (condition : Expr) (body : List Stmt) :
    scope.after (.when init condition body) = scope := rfl

@[simp] theorem after_range (key : Option String) (value : String) (source : Expr)
    (body : List Stmt) : scope.after (.range key value source body) = scope := rfl

@[simp] theorem after_count (counter : String) (first bound : Expr) (body : List Stmt) :
    scope.after (.count counter first bound body) = scope := rfl

@[simp] theorem afterInit_none : scope.afterInit none = scope := rfl

@[simp] theorem afterInit_some (s : Stmt) : scope.afterInit (some s) = scope.after s := rfl

@[simp] theorem ofParams_eq (params : List Param) :
    ofParams params scope = params.map (fun p => (p.name, .typed p.type)) :: scope := rfl

theorem find?_eq_none {x : String} (h : x ∉ scope.flatten.map Prod.fst) : scope.find? x = none := by
  induction scope with
  | nil => rfl
  | cons block outer ih =>
    rw [List.flatten_cons, List.map_append, List.mem_append, not_or] at h
    have hblock : block.lookup x = none := by
      refine List.lookup_eq_none_iff.mpr fun entry hentry => bne_iff_ne.mpr ?_
      rintro rfl
      exact h.1 (List.mem_map_of_mem hentry)
    rw [find?, hblock]
    exact ih h.2

end Scope

namespace Visible

variable {w : Visible} {scope below : Scope} {x : String} {types : List TypeRef}

theorem gives_typed_iff {type : TypeRef} (h : scope.find? x = some (.typed type, below)) :
    w.Gives scope (.ident x) types ↔ types = [type] := by
  constructor
  · intro hgives
    cases hgives with
    | declared hfind => cases h.symm.trans hfind; rfl
    | defined hfind => cases h.symm.trans hfind
    | element hfind => cases h.symm.trans hfind
  · rintro rfl
    exact .declared h

theorem gives_result_iff {value : Expr} {n : Nat}
    (h : scope.find? x = some (.result value n, below)) :
    w.Gives scope (.ident x) types ↔
      ∃ values type, w.Gives below value values ∧ values[n]? = some type ∧ types = [type] := by
  constructor
  · intro hgives
    cases hgives with
    | declared hfind => cases h.symm.trans hfind
    | defined hfind hvalue htype => cases h.symm.trans hfind; exact ⟨_, _, hvalue, htype, rfl⟩
    | element hfind => cases h.symm.trans hfind
  · rintro ⟨values, type, hvalue, htype, rfl⟩
    exact .defined h hvalue htype

theorem gives_element_iff {source : Expr} (h : scope.find? x = some (.element source, below)) :
    w.Gives scope (.ident x) types ↔
      ∃ type element, w.Gives below source [type] ∧ w.HasElements type element ∧
        types = [element] := by
  constructor
  · intro hgives
    cases hgives with
    | declared hfind => cases h.symm.trans hfind
    | defined hfind => cases h.symm.trans hfind
    | element hfind hsource helements =>
      cases h.symm.trans hfind
      exact ⟨_, _, hsource, helements, rfl⟩
  · rintro ⟨type, element, hsource, helements, rfl⟩
    exact .element h hsource helements

/-! ## Types that an expression never has -/

/-- The type is none of those that the expression gives. -/
def NeverGives (w : Visible) (type : TypeRef) (scope : Scope) (e : Expr) : Prop :=
  ∀ types, w.Gives scope e types → type ∉ types

variable {type : TypeRef}

theorem neverGives_typed {declared : TypeRef} (h : scope.find? x = some (.typed declared, below))
    (hne : declared ≠ type) : w.NeverGives type scope (.ident x) := by
  intro types hgives
  rw [gives_typed_iff h] at hgives
  rw [hgives, List.mem_singleton]
  exact hne.symm

theorem neverGives_result {value : Expr} {n : Nat}
    (h : scope.find? x = some (.result value n, below)) (hvalue : w.NeverGives type below value) :
    w.NeverGives type scope (.ident x) := by
  intro types hgives
  obtain ⟨values, result, hvalues, hresult, rfl⟩ := (gives_result_iff h).mp hgives
  rw [List.mem_singleton]
  rintro rfl
  exact hvalue values hvalues (List.mem_of_getElem? hresult)

/-- A block that does not introduce the variable hides nothing of it. -/
theorem NeverGives.behind (h : w.NeverGives type scope (.ident x))
    {block : List (String × Binding)} (hblock : block.lookup x = none) :
    w.NeverGives type (block :: scope) (.ident x) := by
  have hfind : Scope.find? x (block :: scope) = scope.find? x := by rw [Scope.find?, hblock]
  intro types hgives
  cases hgives with
  | declared hname => exact h _ (.declared (hfind ▸ hname))
  | defined hname hvalue htype => exact h _ (.defined (hfind ▸ hname) hvalue htype)
  | element hname hsource helements => exact h _ (.element (hfind ▸ hname) hsource helements)

theorem neverGives_addr_composite {struct : TypeRef} {fields : List (String × Expr)}
    (hne : .pointer struct ≠ type) :
    w.NeverGives type scope (.addr (.composite struct fields)) := by
  intro types hgives
  cases hgives with
  | addr hgives =>
    cases hgives
    rw [List.mem_singleton]
    exact hne.symm

/-- What other packages give is not known, but for a point in time. -/
theorem neverGives_call_qualified {package name : String} {args : List Expr}
    (hne : .qualified timePath "Time" ≠ type) :
    w.NeverGives type scope (.call (.qualified package name) args) := by
  intro types hgives
  cases hgives with
  | applied hgives => cases hgives
  | now =>
    rw [List.mem_singleton]
    exact hne.symm

/-- A function of the package, called without arguments. -/
theorem neverGives_call_function {name : String} (hfind : scope.find? name = none)
    (h : ∀ fn, .func fn ∈ w.own → fn.receiver = none → type ∉ fn.signature.results) :
    w.NeverGives type scope (.call (.ident name) []) := by
  intro types hgives
  cases hgives with
  | function _ hfn hreceiver => exact h _ hfn hreceiver
  | applied hgives =>
    cases hgives with
    | declared hname => cases hfind.symm.trans hname
    | defined hname => cases hfind.symm.trans hname
    | element hname => cases hfind.symm.trans hname

/-- The struct is declared in the file or among the entities. -/
theorem IsStruct.mem {struct : TypeRef} {fields : List Field} (h : w.IsStruct struct fields) :
    ∃ name, .struct name fields ∈ w.own ++ w.entities := by
  cases h with
  | own h => exact ⟨_, List.mem_append_left _ h⟩
  | entity h => exact ⟨_, List.mem_append_right _ h⟩

theorem IsMethod.mem {owner : TypeRef} {fn : Function} (h : w.IsMethod owner fn) :
    .func fn ∈ w.own ++ w.entities := by
  cases h with
  | own h => exact List.mem_append_left _ h
  | entity h => exact List.mem_append_right _ h

/-- What holds of the fields of all structs holds of a field that is selected. -/
theorem ReachesField.of_fields {p : TypeRef → Prop} {owner fieldType : TypeRef} {name : String}
    (h : w.ReachesField type name owner fieldType)
    (hp : ∀ name fields, .struct name fields ∈ w.own ++ w.entities → ∀ f ∈ fields, p f.type) :
    p fieldType := by
  obtain ⟨_, fields, hstruct, f, hf, _, rfl⟩ := h
  obtain ⟨name, hmem⟩ := hstruct.mem
  exact hp name fields hmem f hf

/-- A name that the type declares itself is nowhere else. -/
theorem ReachesField.owner_eq {owner fieldType : TypeRef} {name : String}
    (h : w.ReachesField type name owner fieldType) (hdeclares : w.Declares type name) :
    owner = type := by
  obtain ⟨⟨depth, hembeds, _, hleast⟩, _⟩ := h
  cases hembeds with
  | self => rfl
  | through => exact absurd hdeclares (hleast 0 (Nat.succ_pos _) type (.self type))

/-- A field that the type of a variable declares itself. -/
theorem neverGives_field {declared : TypeRef} {name : String}
    (hfind : scope.find? x = some (.typed declared, below))
    (hdeclares : w.Declares declared.target name)
    (hfields : ∀ fields, w.IsStruct declared.target fields → ∀ f ∈ fields, f.type ≠ type) :
    w.NeverGives type scope (.field (.ident x) name) := by
  intro types hgives
  cases hgives with
  | field hbase hreaches =>
    obtain rfl := List.singleton_inj.mp ((gives_typed_iff hfind).mp hbase)
    obtain rfl := hreaches.owner_eq hdeclares
    obtain ⟨_, fields, hstruct, f, hf, _, rfl⟩ := hreaches
    rw [List.mem_singleton]
    exact (hfields fields hstruct f hf).symm

/-- A type that no field has. -/
theorem neverGives_field_of_types {base : Expr} {name : String}
    (h : ∀ name fields, .struct name fields ∈ w.own ++ w.entities → ∀ f ∈ fields, f.type ≠ type) :
    w.NeverGives type scope (.field base name) := by
  intro types hgives
  cases hgives with
  | field _ hreaches =>
    rw [List.mem_singleton]
    exact (hreaches.of_fields (p := fun fieldType => fieldType ≠ type) h).symm

/-- The type is given by no function and held by no sequence: only a field can have it. -/
structure Withholds (w : Visible) (type : TypeRef) : Prop where
  results : ∀ fn, .func fn ∈ w.own ++ w.entities → type ∉ fn.signature.results
  held : ∀ name fields, .struct name fields ∈ w.own ++ w.entities → ∀ f ∈ fields,
    ∀ params results, f.type = .func params results → type ∉ results
  elements : ∀ name fields, .struct name fields ∈ w.own ++ w.entities → ∀ f ∈ fields,
    ¬ w.HasElements f.type type

/-- A method, or a function that is held by a field. -/
theorem Withholds.method (h : w.Withholds type) {base : Expr} {name : String} {args : List Expr} :
    w.NeverGives type scope (.method base name args) := by
  intro types hgives
  cases hgives with
  | method _ _ hmethod => exact h.results _ hmethod.mem
  | applied hcallee =>
    cases hcallee with
    | field _ hreaches =>
      exact hreaches.of_fields (p := fun fieldType => ∀ params results,
        fieldType = .func params results → type ∉ results) h.held _ _ rfl

theorem Withholds.function (h : w.Withholds type) {name : String}
    (hfind : scope.find? name = none) : w.NeverGives type scope (.call (.ident name) []) :=
  neverGives_call_function hfind fun fn hfn _ => h.results fn (List.mem_append_left _ hfn)

/-- An element of a field. -/
theorem Withholds.index (h : w.Withholds type) {base position : Expr} {name : String} :
    w.NeverGives type scope (.index (.field base name) position) := by
  intro types hgives
  cases hgives with
  | index hfield helements =>
    cases hfield with
    | field _ hreaches =>
      rw [List.mem_singleton]
      rintro rfl
      exact hreaches.of_fields (p := fun fieldType => ¬ w.HasElements fieldType _) h.elements
        helements

/-- A variable of a loop over a field. -/
theorem Withholds.element (h : w.Withholds type) {base : Expr} {name : String}
    (hfind : scope.find? x = some (.element (.field base name), below)) :
    w.NeverGives type scope (.ident x) := by
  intro types hgives
  obtain ⟨source, element, hfield, helements, rfl⟩ := (gives_element_iff hfind).mp hgives
  have hindex : w.Gives below (.index (.field base name) .nil) [element] :=
    .index hfield helements
  exact h.index _ hindex

end Visible

end Tablewright.Code
