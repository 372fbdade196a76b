import Tablewright.Proofs.Code.Parts

/-! The scope of names in code. A variable is visible from behind the statement that introduces it
to the end of the block, and the compiler of the generated language refuses a name that nothing
introduces, and also a local variable that nothing reads. -/

namespace Tablewright.Code

/-! ## Names in types, expressions and statements -/

/-- Which occurrences of names count. -/
inductive Occurrence
  /-- All of them, the names of types included. -/
  | any
  /-- Those that read a variable, which an assignment to it does not. -/
  | read
deriving DecidableEq

mutual

/-- The types that a type refers to by name. -/
def TypeRef.names : TypeRef → List String
  | .named name => [name]
  | .qualified _ _ | .any => []
  | .pointer target => target.names
  | .slice element => element.names
  | .map key value => key.names ++ value.names
  | .func params results => TypeRef.namesOf params ++ TypeRef.namesOf results

def TypeRef.namesOf : List TypeRef → List String
  | [] => []
  | t :: ts => t.names ++ TypeRef.namesOf ts

end

/-- A type in an expression reads no variable. -/
def TypeRef.free (o : Occurrence) (t : TypeRef) : List String := if o = .read then [] else t.names

/-- The variable itself, not something that it holds. -/
def Expr.isVariable : Expr → Bool
  | .ident _ => true
  | _ => false

/-- The variables that a statement introduces for what follows it in its block. -/
def Stmt.bound : Stmt → List String
  | .define names _ => names
  | .declare name _ => [name]
  | _ => []

/-- The variables that a statement before a condition introduces. -/
def Stmt.boundInit : Option Stmt → List String
  | some s => s.bound
  | none => []

/-- The names but for some that are bound. -/
def unbound (bound names : List String) : List String := names.filter (· ∉ bound)

mutual

/-- The names in an expression that are not bound in it. -/
def Expr.free (o : Occurrence) : Expr → List String
  | .ident name => [name]
  | .qualified _ _ | .nil | .str _ | .int _ => []
  | .type type => type.free o
  | .field base _ => base.free o
  | .call callee args => callee.free o ++ Expr.freeOf o args
  | .index base position => base.free o ++ position.free o
  | .unary _ operand => operand.free o
  | .binary left _ right => left.free o ++ right.free o
  | .paren inner => inner.free o
  | .composite type fields => type.free o ++ Expr.freeOfFields o fields
  | .slice element elements => element.free o ++ Expr.freeOf o elements
  | .map key value entries => key.free o ++ value.free o ++ Expr.freeOfEntries o entries
  | .func params results body =>
    params.flatMap (·.type.free o) ++ results.flatMap (·.free o) ++
      unbound (params.map (·.name)) (Stmt.freeOf o body)

def Expr.freeOf (o : Occurrence) : List Expr → List String
  | [] => []
  | e :: es => e.free o ++ Expr.freeOf o es

def Expr.freeOfFields (o : Occurrence) : List (String × Expr) → List String
  | [] => []
  | (_, value) :: rest => value.free o ++ Expr.freeOfFields o rest

def Expr.freeOfEntries (o : Occurrence) : List (Expr × Expr) → List String
  | [] => []
  | (key, value) :: rest => key.free o ++ value.free o ++ Expr.freeOfEntries o rest

/-- The names in a statement that are not bound in it. -/
def Stmt.free (o : Occurrence) : Stmt → List String
  | .expr e => e.free o
  | .define _ value => value.free o
  | .assign target value =>
    (if o = .read ∧ target.isVariable = true then [] else target.free o) ++ value.free o
  | .declare _ type => type.free o
  | .ret values => Expr.freeOf o values
  | .when init condition body =>
    Stmt.freeOfInit o init ++
      unbound (Stmt.boundInit init) (condition.free o ++ Stmt.freeOf o body)
  | .range key value source body =>
    source.free o ++ unbound (value :: key.toList) (Stmt.freeOf o body)
  | .count counter first bound body =>
    first.free o ++ unbound [counter] (bound.free o ++ Stmt.freeOf o body)

def Stmt.freeOfInit (o : Occurrence) : Option Stmt → List String
  | some s => s.free o
  | none => []

/-- The names in a block that are not bound in it. -/
def Stmt.freeOf (o : Occurrence) : List Stmt → List String
  | [] => []
  | s :: rest => s.free o ++ unbound s.bound (Stmt.freeOf o rest)

end

/-! ## Variables that are never read -/

/-- Those of the variables that are not among the names that are read. The blank is no variable. -/
def unread (names read : List String) : List String :=
  names.filter fun x => x ≠ "_" ∧ x ∉ read

mutual

/-- The variables that the function literals in an expression introduce and never read. -/
def Expr.unused : Expr → List String
  | .ident _ | .qualified _ _ | .nil | .str _ | .int _ | .type _ => []
  | .field base _ => base.unused
  | .call callee args => callee.unused ++ Expr.unusedOf args
  | .index base position => base.unused ++ position.unused
  | .unary _ operand => operand.unused
  | .binary left _ right => left.unused ++ right.unused
  | .paren inner => inner.unused
  | .composite _ fields => Expr.unusedOfFields fields
  | .slice _ elements => Expr.unusedOf elements
  | .map _ _ entries => Expr.unusedOfEntries entries
  | .func _ _ body => Stmt.unusedOf body

def Expr.unusedOf : List Expr → List String
  | [] => []
  | e :: es => e.unused ++ Expr.unusedOf es

def Expr.unusedOfFields : List (String × Expr) → List String
  | [] => []
  | (_, value) :: rest => value.unused ++ Expr.unusedOfFields rest

def Expr.unusedOfEntries : List (Expr × Expr) → List String
  | [] => []
  | (key, value) :: rest => key.unused ++ value.unused ++ Expr.unusedOfEntries rest

/-- The variables that are introduced inside a statement and never read. The counter of a loop is
read by its condition. -/
def Stmt.unused : Stmt → List String
  | .expr e => e.unused
  | .define _ value => value.unused
  | .assign target value => target.unused ++ value.unused
  | .declare _ _ => []
  | .ret values => Expr.unusedOf values
  | .when init condition body =>
    Stmt.unusedOfInit init ++
      unread (Stmt.boundInit init) (condition.free .read ++ Stmt.freeOf .read body) ++
      condition.unused ++ Stmt.unusedOf body
  | .range key value source body =>
    source.unused ++ unread (value :: key.toList) (Stmt.freeOf .read body) ++ Stmt.unusedOf body
  | .count _ first bound body => first.unused ++ bound.unused ++ Stmt.unusedOf body

def Stmt.unusedOfInit : Option Stmt → List String
  | some s => s.unused
  | none => []

/-- The variables of a block that are never read in their scope. A name that is defined once more is
another variable. -/
def Stmt.unusedOf : List Stmt → List String
  | [] => []
  | s :: rest => s.unused ++ unread s.bound (Stmt.freeOf .read rest) ++ Stmt.unusedOf rest

end

/-! ## Functions and files -/

namespace Function

/-- The names that a call of the function binds. -/
def bound (fn : Function) : List String :=
  (fn.receiver.toList ++ fn.signature.params).map (·.name)

/-- The names in the body that the function does not bind. -/
def free (fn : Function) : List String := unbound fn.bound (Stmt.freeOf .any fn.body)

/-- The local variables that the function never reads. -/
def unused (fn : Function) : List String := Stmt.unusedOf fn.body

end Function

/-- The names that the language declares before any program. -/
def predeclared : List String := [
  "any", "bool", "byte", "comparable", "complex64", "complex128", "error", "float32", "float64",
  "int", "int8", "int16", "int32", "int64", "rune", "string", "uint", "uint8", "uint16", "uint32",
  "uint64", "uintptr", "true", "false", "iota", "nil", "append", "cap", "clear", "close", "complex",
  "copy", "delete", "imag", "len", "make", "max", "min", "new", "panic", "print", "println", "real",
  "recover"]

/-- The name that an item declares for its package. A method belongs to its type. -/
def Item.declared? : Item → Option String
  | .struct name _ | .typeName name _ | .interface name _ => some name
  | .func f => if f.receiver.isSome then none else some f.signature.name

namespace SourceFile

/-- The names that the file declares for its package. -/
def declared (file : SourceFile) : List String := file.items.filterMap Item.declared?

/-- All names in functions are bound by the function, declared in the package or predeclared. -/
def NamesInScope (file : SourceFile) : Prop :=
  ∀ fn ∈ file.functions, ∀ x ∈ fn.free, x ∈ predeclared ∨ x ∈ file.declared

/-- All local variables of functions are read. -/
def ReadsLocals (file : SourceFile) : Prop := ∀ fn ∈ file.functions, fn.unused = []

end SourceFile

/-! ## Names of composed code -/

section Composed

variable {o : Occurrence} {x : String}

@[simp] theorem mem_unbound {bound names : List String} :
    x ∈ unbound bound names ↔ x ∈ names ∧ x ∉ bound := by
  simp [unbound]

@[simp] theorem unread_nil (read : List String) : unread [] read = [] := rfl

theorem unread_cons (names read : List String) :
    unread (x :: names) read =
      if x ≠ "_" ∧ x ∉ read then x :: unread names read else unread names read := by
  simp [unread, List.filter_cons]

@[simp] theorem TypeRef.mem_free {t : TypeRef} : x ∈ t.free o ↔ o = .any ∧ x ∈ t.names := by
  cases o <;> simp [TypeRef.free]

@[simp] theorem Expr.freeOf_eq_flatMap (es : List Expr) :
    Expr.freeOf o es = es.flatMap (Expr.free o) := by
  induction es with
  | nil => rfl
  | cons e es ih => rw [Expr.freeOf, ih, List.flatMap_cons]

@[simp] theorem Expr.freeOfFields_eq_flatMap (fields : List (String × Expr)) :
    Expr.freeOfFields o fields = fields.flatMap (·.2.free o) := by
  induction fields with
  | nil => rfl
  | cons field rest ih => rw [Expr.freeOfFields, ih, List.flatMap_cons]

@[simp] theorem Expr.freeOfEntries_eq_flatMap (entries : List (Expr × Expr)) :
    Expr.freeOfEntries o entries = entries.flatMap fun e => e.1.free o ++ e.2.free o := by
  induction entries with
  | nil => rfl
  | cons entry rest ih => rw [Expr.freeOfEntries, ih, List.flatMap_cons]

@[simp] theorem Expr.unusedOf_eq_flatMap (es : List Expr) :
    Expr.unusedOf es = es.flatMap Expr.unused := by
  induction es with
  | nil => rfl
  | cons e es ih => rw [Expr.unusedOf, ih, List.flatMap_cons]

@[simp] theorem Expr.unusedOfFields_eq_flatMap (fields : List (String × Expr)) :
    Expr.unusedOfFields fields = fields.flatMap (·.2.unused) := by
  induction fields with
  | nil => rfl
  | cons field rest ih => rw [Expr.unusedOfFields, ih, List.flatMap_cons]

@[simp] theorem Expr.unusedOfEntries_eq_flatMap (entries : List (Expr × Expr)) :
    Expr.unusedOfEntries entries = entries.flatMap fun e => e.1.unused ++ e.2.unused := by
  induction entries with
  | nil => rfl
  | cons entry rest ih => rw [Expr.unusedOfEntries, ih, List.flatMap_cons]

attribute [simp] TypeRef.names Expr.free Stmt.free Stmt.freeOfInit Expr.unused Stmt.unused
  Stmt.unusedOfInit Stmt.boundInit Expr.isVariable

@[simp] theorem TypeRef.names_error : TypeRef.error.names = ["error"] := rfl

@[simp] theorem Stmt.bound_expr (e : Expr) : (expr e).bound = [] := rfl

@[simp] theorem Stmt.bound_define (names : List String) (value : Expr) :
    (define names value).bound = names := rfl

@[simp] theorem Stmt.bound_assign (target value : Expr) : (assign target value).bound = [] := rfl

@[simp] theorem Stmt.bound_declare (name : String) (type : TypeRef) :
    (declare name type).bound = [name] := rfl

@[simp] theorem Stmt.bound_ret (values : List Expr) : (ret values).bound = [] := rfl

@[simp] theorem Stmt.bound_when (init : Option Stmt) (condition : Expr) (body : List Stmt) :
    (Stmt.when init condition body).bound = [] := rfl

@[simp] theorem Stmt.bound_range (key : Option String) (value : String) (source : Expr)
    (body : List Stmt) : (range key value source body).bound = [] := rfl

@[simp] theorem Stmt.bound_count (counter : String) (first bound : Expr) (body : List Stmt) :
    (count counter first bound body).bound = [] := rfl

@[simp] theorem Stmt.freeOf_nil : Stmt.freeOf o [] = [] := rfl

@[simp] theorem Stmt.mem_freeOf_cons {s : Stmt} {rest : List Stmt} :
    x ∈ Stmt.freeOf o (s :: rest) ↔ x ∈ s.free o ∨ x ∈ Stmt.freeOf o rest ∧ x ∉ s.bound := by
  rw [Stmt.freeOf, List.mem_append, mem_unbound]

@[simp] theorem Stmt.mem_freeOf_append {before rest : List Stmt} :
    x ∈ Stmt.freeOf o (before ++ rest) ↔
      x ∈ Stmt.freeOf o before ∨ x ∈ Stmt.freeOf o rest ∧ x ∉ before.flatMap Stmt.bound := by
  induction before with
  | nil => simp
  | cons s before ih =>
    simp only [List.cons_append, Stmt.mem_freeOf_cons, ih, List.flatMap_cons, List.mem_append]
    grind

/-- Statements of one form that introduce no variables. -/
theorem Stmt.mem_freeOf_map {α : Type} {f : α → Stmt} (h : ∀ a, (f a).bound = []) {l : List α} :
    x ∈ Stmt.freeOf o (l.map f) ↔ ∃ a ∈ l, x ∈ (f a).free o := by
  induction l with
  | nil => simp
  | cons a l ih => simp [h, ih]

@[simp] theorem Stmt.unusedOf_nil : Stmt.unusedOf [] = [] := rfl

@[simp] theorem Stmt.unusedOf_cons (s : Stmt) (rest : List Stmt) :
    Stmt.unusedOf (s :: rest) =
      s.unused ++ unread s.bound (Stmt.freeOf .read rest) ++ Stmt.unusedOf rest := rfl

/-- Statements that introduce no variables leave those of what follows them as they are. -/
theorem Stmt.unusedOf_append {before : List Stmt} (h : ∀ s ∈ before, s.bound = [] ∧ s.unused = [])
    (rest : List Stmt) : Stmt.unusedOf (before ++ rest) = Stmt.unusedOf rest := by
  induction before with
  | nil => rfl
  | cons s before ih =>
    obtain ⟨⟨hbound, hunused⟩, hbefore⟩ := List.forall_mem_cons.mp h
    rw [List.cons_append, Stmt.unusedOf_cons, hbound, hunused, ih hbefore, unread_nil,
      List.append_nil, List.nil_append]

theorem Stmt.unusedOf_map_append {α : Type} {f : α → Stmt} (hbound : ∀ a, (f a).bound = [])
    (hunused : ∀ a, (f a).unused = []) (l : List α) (rest : List Stmt) :
    Stmt.unusedOf (l.map f ++ rest) = Stmt.unusedOf rest :=
  Stmt.unusedOf_append (List.forall_mem_map.mpr fun a _ => ⟨hbound a, hunused a⟩) rest

@[simp] theorem Stmt.mem_freeOf_ite {c : Prop} [Decidable c] {body : List Stmt} :
    x ∈ Stmt.freeOf o (if c then body else []) ↔ c ∧ x ∈ Stmt.freeOf o body := by
  split <;> simp [*]

namespace Expr

@[simp] theorem free_method (e : Expr) (name : String) (args : List Expr) :
    (e.method name args).free o = e.free o ++ args.flatMap (free o) := by
  simp [method]

@[simp] theorem free_addr (e : Expr) : e.addr.free o = e.free o := by simp [addr]

@[simp] theorem free_deref (e : Expr) : e.deref.free o = e.free o := by simp [deref]

@[simp] theorem free_not (e : Expr) : e.not.free o = e.free o := by simp [not]

@[simp] theorem free_eq (a b : Expr) : (a.eq b).free o = a.free o ++ b.free o := by simp [eq]

@[simp] theorem free_ne (a b : Expr) : (a.ne b).free o = a.free o ++ b.free o := by simp [ne]

@[simp] theorem free_and (a b : Expr) : (a.and b).free o = a.free o ++ b.free o := by simp [and]

@[simp] theorem free_or (a b : Expr) : (a.or b).free o = a.free o ++ b.free o := by simp [or]

@[simp] theorem unused_method (e : Expr) (name : String) (args : List Expr) :
    (e.method name args).unused = e.unused ++ args.flatMap unused := by
  simp [method]

@[simp] theorem unused_addr (e : Expr) : e.addr.unused = e.unused := by simp [addr]

@[simp] theorem unused_deref (e : Expr) : e.deref.unused = e.unused := by simp [deref]

@[simp] theorem unused_not (e : Expr) : e.not.unused = e.unused := by simp [not]

@[simp] theorem unused_eq (a b : Expr) : (a.eq b).unused = a.unused ++ b.unused := by simp [eq]

@[simp] theorem unused_ne (a b : Expr) : (a.ne b).unused = a.unused ++ b.unused := by simp [ne]

@[simp] theorem unused_and (a b : Expr) : (a.and b).unused = a.unused ++ b.unused := by simp [and]

@[simp] theorem unused_or (a b : Expr) : (a.or b).unused = a.unused ++ b.unused := by simp [or]

end Expr

/-! ## Names of the shared fragments -/

theorem mem_free_zeroValue {e : EntityType} (h : x ∈ e.zeroValue.free o) : x = "false" := by
  cases e <;> simp_all [EntityType.zeroValue]

@[simp] theorem unused_zeroValue (e : EntityType) : e.zeroValue.unused = [] := by cases e <;> rfl

/-- The types of values are predeclared, but for the points in time, which come from a package. -/
theorem mem_names_valueType {e : EntityType} (h : x ∈ e.valueType.names) : x ∈ predeclared := by
  cases e <;> simp_all [EntityType.valueType, EntityType.name, predeclared]

@[simp] theorem free_trace (t : Target) (e : Expr) : (t.trace e).free o = e.free o := by
  simp [Target.trace]

@[simp] theorem unused_trace (t : Target) (e : Expr) : (t.trace e).unused = e.unused := by
  simp [Target.trace]

@[simp] theorem bound_checkErr (t : Target) (values : List Expr) :
    (checkErr t values).bound = [] := rfl

@[simp] theorem mem_free_checkErr {t : Target} {values : List Expr} :
    x ∈ (checkErr t values).free o ↔ x = "err" ∨ x ∈ values.flatMap (Expr.free o) := by
  simp [checkErr, failed, Target.traceErr]
  grind

@[simp] theorem unused_checkErr (t : Target) (values : List Expr) :
    (checkErr t values).unused = values.flatMap Expr.unused := by
  simp [checkErr, failed, Target.traceErr]

@[simp] theorem bound_tryCall (t : Target) (call : Expr) (values : List Expr) :
    (tryCall t call values).bound = [] := rfl

/-- The error is bound by the statement before the condition. -/
@[simp] theorem mem_free_tryCall {t : Target} {call : Expr} {values : List Expr} :
    x ∈ (tryCall t call values).free o ↔
      x ∈ call.free o ∨ x ∈ values.flatMap (Expr.free o) ∧ x ≠ "err" := by
  simp [tryCall, failed, Target.traceErr]
  grind

@[simp] theorem unused_tryCall (t : Target) (call : Expr) (values : List Expr) :
    (tryCall t call values).unused = call.unused ++ values.flatMap Expr.unused := by
  simp [tryCall, failed, Target.traceErr, unread_cons]

/-! ## Names of items -/

namespace Item

/-- The names in the body of a function that it does not bind. -/
def freeNames : Item → List String
  | .func fn => fn.free
  | _ => []

/-- The local variables of a function that it never reads. -/
def unusedNames : Item → List String
  | .func fn => fn.unused
  | _ => []

/-- The item uses only predeclared names and the given ones, and reads all its variables. -/
structure WellScoped (names : List String) (item : Item) : Prop where
  inScope : ∀ x ∈ item.freeNames, x ∈ predeclared ∨ x ∈ names
  reads : item.unusedNames = []

@[simp] theorem mem_freeNames_free {s : Signature} {body : List Stmt} :
    x ∈ (Item.free s body).freeNames ↔
      x ∈ Stmt.freeOf .any body ∧ x ∉ s.params.map (·.name) := by
  simp [Item.free, freeNames, Function.free, Function.bound]

@[simp] theorem mem_freeNames_method {receiver : Param} {s : Signature} {body : List Stmt} :
    x ∈ (Item.method receiver s body).freeNames ↔
      x ∈ Stmt.freeOf .any body ∧ x ≠ receiver.name ∧ x ∉ s.params.map (·.name) := by
  simp [Item.method, freeNames, Function.free, Function.bound]

@[simp] theorem unusedNames_free (s : Signature) (body : List Stmt) :
    (Item.free s body).unusedNames = Stmt.unusedOf body := rfl

@[simp] theorem unusedNames_method (receiver : Param) (s : Signature) (body : List Stmt) :
    (Item.method receiver s body).unusedNames = Stmt.unusedOf body := rfl

end Item

namespace SourceFile

theorem namesInScope_iff {file : SourceFile} :
    file.NamesInScope ↔
      ∀ item ∈ file.items, ∀ x ∈ item.freeNames, x ∈ predeclared ∨ x ∈ file.declared := by
  constructor
  · intro h item hitem x hx
    cases item with
    | func fn => exact h fn (mem_functions.mpr hitem) x hx
    | _ => cases hx
  · intro h fn hfn
    exact h _ (mem_functions.mp hfn)

theorem namesInScope_of_wellScoped {file : SourceFile} {names : List String}
    (h : ∀ item ∈ file.items, item.WellScoped names) (hnames : ∀ x ∈ names, x ∈ file.declared) :
    file.NamesInScope :=
  namesInScope_iff.mpr fun item hitem x hx => ((h item hitem).inScope x hx).imp_right (hnames x)

theorem readsLocals_iff {file : SourceFile} :
    file.ReadsLocals ↔ ∀ item ∈ file.items, item.unusedNames = [] := by
  constructor
  · intro h item hitem
    cases item with
    | func fn => exact h fn (mem_functions.mpr hitem)
    | _ => rfl
  · intro h fn hfn
    exact h _ (mem_functions.mp hfn)

end SourceFile

end Composed

end Tablewright.Code
