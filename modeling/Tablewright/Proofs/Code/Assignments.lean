import Tablewright.Proofs.Code.Uses

/-! The assignments in code, each with the scope in which it is run, and the types of what they
store. An assignment is typed if its target and its value have one type, and no other. -/

namespace Tablewright.Code

structure Assignment where
  scope : Scope
  target : Expr
  value : Expr

mutual

/-- The assignments in an expression, which stand in function literals. -/
def Expr.assignments (scope : Scope) : Expr → List Assignment
  | .ident _ | .qualified _ _ | .nil | .str _ | .int _ | .type _ => []
  | .field base _ => base.assignments scope
  | .call callee args => callee.assignments scope ++ Expr.assignmentsOf scope args
  | .index base position => base.assignments scope ++ position.assignments scope
  | .unary _ operand => operand.assignments scope
  | .binary left _ right => left.assignments scope ++ right.assignments scope
  | .paren e => e.assignments scope
  | .composite _ fields => Expr.assignmentsOfFields scope fields
  | .slice _ elements => Expr.assignmentsOf scope elements
  | .map _ _ entries => Expr.assignmentsOfEntries scope entries
  | .func params _ body => Stmt.assignmentsOf (.ofParams params scope) body
termination_by structural e => e

def Expr.assignmentsOf (scope : Scope) : List Expr → List Assignment
  | [] => []
  | e :: es => e.assignments scope ++ Expr.assignmentsOf scope es
termination_by structural es => es

def Expr.assignmentsOfFields (scope : Scope) : List (String × Expr) → List Assignment
  | [] => []
  | (_, value) :: rest => value.assignments scope ++ Expr.assignmentsOfFields scope rest
termination_by structural fields => fields

def Expr.assignmentsOfEntries (scope : Scope) : List (Expr × Expr) → List Assignment
  | [] => []
  | (key, value) :: rest =>
    key.assignments scope ++ value.assignments scope ++ Expr.assignmentsOfEntries scope rest
termination_by structural entries => entries

def Stmt.assignments (scope : Scope) : Stmt → List Assignment
  | .expr e => e.assignments scope
  | .define _ value => value.assignments scope
  | .assign target value =>
    target.assignments scope ++ value.assignments scope ++ [⟨scope, target, value⟩]
  | .declare _ _ => []
  | .ret values => Expr.assignmentsOf scope values
  | .when init condition body =>
    Stmt.assignmentsOfInit scope init ++ condition.assignments (scope.afterInit init) ++
      Stmt.assignmentsOf (scope.afterInit init) body
  | .range key value source body =>
    source.assignments scope ++ Stmt.assignmentsOf
      ((key.toList.map (·, .typed (.named "int")) ++ [(value, .element source)]) :: scope) body
  | .count counter first bound body =>
    first.assignments scope ++ bound.assignments ([(counter, .result first 0)] :: scope) ++
      Stmt.assignmentsOf ([(counter, .result first 0)] :: scope) body
termination_by structural s => s

def Stmt.assignmentsOfInit (scope : Scope) : Option Stmt → List Assignment
  | some s => s.assignments scope
  | none => []
termination_by structural init => init

/-- The assignments in a block. -/
def Stmt.assignmentsOf (scope : Scope) : List Stmt → List Assignment
  | [] => []
  | s :: rest => s.assignments scope ++ Stmt.assignmentsOf (scope.after s) rest
termination_by structural body => body

end

def Function.assignments (fn : Function) : List Assignment := Stmt.assignmentsOf fn.scope fn.body

/-! ## Assignments in composed code -/

section Composed

variable {scope : Scope}

@[simp] theorem Expr.assignmentsOf_eq_flatMap (es : List Expr) :
    Expr.assignmentsOf scope es = es.flatMap (Expr.assignments scope) := by
  induction es with
  | nil => rfl
  | cons e es ih => rw [Expr.assignmentsOf, ih, List.flatMap_cons]

@[simp] theorem Expr.assignmentsOfEntries_eq_flatMap (entries : List (Expr × Expr)) :
    Expr.assignmentsOfEntries scope entries =
      entries.flatMap fun e => e.1.assignments scope ++ e.2.assignments scope := by
  induction entries with
  | nil => rfl
  | cons entry rest ih => rw [Expr.assignmentsOfEntries, ih, List.flatMap_cons]

attribute [simp] Expr.assignments Stmt.assignments Stmt.assignmentsOfInit

@[simp] theorem Stmt.assignmentsOf_nil : Stmt.assignmentsOf scope [] = [] := rfl

@[simp] theorem Stmt.assignmentsOf_cons (s : Stmt) (rest : List Stmt) :
    Stmt.assignmentsOf scope (s :: rest) =
      s.assignments scope ++ Stmt.assignmentsOf (scope.after s) rest := rfl

@[simp] theorem Stmt.assignmentsOf_append (before rest : List Stmt) :
    Stmt.assignmentsOf scope (before ++ rest) =
      Stmt.assignmentsOf scope before ++
        Stmt.assignmentsOf (before.foldl Scope.after scope) rest := by
  induction before generalizing scope with
  | nil => rfl
  | cons s before ih =>
    rw [List.cons_append, assignmentsOf_cons, assignmentsOf_cons, ih, List.foldl_cons,
      List.append_assoc]

@[simp] theorem Expr.assignments_method (e : Expr) (name : String) (args : List Expr) :
    (e.method name args).assignments scope =
      e.assignments scope ++ args.flatMap (assignments scope) := by
  simp [method]

@[simp] theorem Expr.assignments_addr (e : Expr) :
    e.addr.assignments scope = e.assignments scope := by
  simp [addr]

@[simp] theorem Expr.assignments_eq (a b : Expr) :
    (a.eq b).assignments scope = a.assignments scope ++ b.assignments scope := by
  simp [eq]

@[simp] theorem Expr.assignments_zeroValue (e : EntityType) :
    e.zeroValue.assignments scope = [] := by
  cases e <;> rfl

variable (t : Target)

@[simp] theorem assignments_checkErr (values : List Expr) :
    (checkErr t values).assignments scope = values.flatMap (Expr.assignments scope) := by
  simp [checkErr, failed, Expr.ne, Target.traceErr, Target.trace]

@[simp] theorem assignments_tryCall (call : Expr) (values : List Expr) :
    (tryCall t call values).assignments scope = call.assignments scope ++
      values.flatMap (Expr.assignments ([("err", .result call 0)] :: scope)) := by
  simp [tryCall, failed, Expr.ne, Target.traceErr, Target.trace]

end Composed

/-! ## Values of one type -/

namespace Visible

variable (w : Visible)

/-- The expression gives one value, of this type and no other. -/
def GivesOnly (scope : Scope) (e : Expr) (type : TypeRef) : Prop :=
  ∀ types, w.Gives scope e types ↔ types = [type]

/-- Target and value of the assignment have one type. -/
def Typed (a : Assignment) : Prop :=
  ∃ type, w.GivesOnly a.scope a.target type ∧ w.GivesOnly a.scope a.value type

variable {w} {scope below : Scope} {e : Expr} {x : String} {type : TypeRef}

theorem GivesOnly.gives (h : w.GivesOnly scope e type) : w.Gives scope e [type] :=
  (h _).mpr rfl

theorem GivesOnly.type_eq {other : TypeRef} (h : w.GivesOnly scope e type)
    (hother : w.GivesOnly scope e other) : type = other :=
  List.singleton_inj.mp ((hother _).mp h.gives)

theorem typed_iff {a : Assignment} {stored : TypeRef} (htarget : w.GivesOnly a.scope a.target type)
    (hvalue : w.GivesOnly a.scope a.value stored) : w.Typed a ↔ stored = type := by
  constructor
  · rintro ⟨other, htarget', hvalue'⟩
    rw [hvalue.type_eq hvalue', htarget.type_eq htarget']
  · rintro rfl
    exact ⟨stored, htarget, hvalue⟩

theorem GivesOnly.addr (h : w.GivesOnly scope e type) :
    w.GivesOnly scope e.addr (.pointer type) := by
  intro types
  constructor
  · intro hgives
    cases hgives with
    | addr hgives => rw [List.singleton_inj.mp ((h _).mp hgives)]
  · rintro rfl
    exact .addr h.gives

theorem givesOnly_now :
    w.GivesOnly scope (.call (.qualified timePath "Now") []) (.qualified timePath "Time") := by
  intro types
  constructor
  · intro hgives
    cases hgives with
    | applied hcallee => cases hcallee
    | now => rfl
  · rintro rfl
    exact .now

/-- A variable that is defined as the value. -/
theorem GivesOnly.ident {value : Expr} (h : w.GivesOnly below value type)
    (hfind : scope.find? x = some (.result value 0, below)) :
    w.GivesOnly scope (.ident x) type := by
  intro types
  rw [gives_result_iff hfind]
  constructor
  · rintro ⟨values, first, hvalue, hfirst, rfl⟩
    obtain rfl := (h _).mp hvalue
    rw [Option.some.inj hfirst]
  · rintro rfl
    exact ⟨_, type, h.gives, rfl, rfl⟩

/-- A field that the type of a variable has itself, if no other field has its name. -/
theorem givesOnly_field {declared : TypeRef} {fields : List Field} {f : Field} {name : String}
    (hfind : scope.find? x = some (.typed declared, below))
    (hstruct : w.IsStruct declared.target fields) (hf : f ∈ fields) (hname : f.selector? = some name)
    (honly : ∀ others, w.IsStruct declared.target others → ∀ g ∈ others, g.selector? = some name →
      g.type = f.type) : w.GivesOnly scope (.field (.ident x) name) f.type := by
  intro types
  constructor
  · intro hgives
    cases hgives with
    | field hbase hreaches =>
      obtain rfl := List.singleton_inj.mp ((gives_typed_iff hfind).mp hbase)
      obtain rfl := hreaches.owner_eq (.field hstruct hf hname)
      obtain ⟨_, others, hother, g, hg, hgname, rfl⟩ := hreaches
      rw [honly others hother g hg hgname]
  · rintro rfl
    exact .field (.declared hfind) (reachesField_self hstruct hf hname)

/-- A function that is held by a field, if no method has its name. -/
theorem GivesOnly.apply {base : Expr} {name : String} {args : List Expr} {params : List TypeRef}
    (h : w.GivesOnly scope (.field base name) (.func params [type]))
    (hmethod : ∀ owner fn, w.IsMethod owner fn → fn.signature.name ≠ name) :
    w.GivesOnly scope (.method base name args) type := by
  intro types
  constructor
  · intro hgives
    cases hgives with
    | method _ _ hother => exact absurd rfl (hmethod _ _ hother)
    | applied hcallee =>
      cases (h _).mp hcallee
      rfl
  · rintro rfl
    exact .applied h.gives

/-- A conversion to a type of numbers, if nothing else has its name. -/
theorem givesOnly_converted {name : String} (hnumber : name ∈ numberTypes)
    (hfind : scope.find? name = none)
    (hfree : ∀ fn, .func fn ∈ w.own → fn.signature.name ≠ name) :
    w.GivesOnly scope (.call (.ident name) [e]) (.named name) := by
  intro types
  constructor
  · intro hgives
    cases hgives with
    | function _ hfn => exact absurd rfl (hfree _ hfn)
    | applied hcallee =>
      cases hcallee with
      | declared h => cases hfind.symm.trans h
      | defined h => cases hfind.symm.trans h
      | element h => cases hfind.symm.trans h
    | appended => exact absurd hnumber (by decide)
    | made => exact absurd hnumber (by decide)
    | length => exact absurd hnumber (by decide)
    | converted => rfl
  · rintro rfl
    exact .converted hnumber

end Visible

end Tablewright.Code
