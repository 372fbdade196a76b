import Tablewright.Proofs.Code.Parts

/-! The tests for equality in code, and the types of their operands. The compiler of the generated
language refuses a test on sequences, unless one operand is `nil`. -/

namespace Tablewright.Code

/-! ## Comparisons -/

/-- The operands of a test for equality or inequality. -/
def Expr.compared? : Expr → Option (Expr × Expr)
  | .binary left .eq right | .binary left .ne right => some (left, right)
  | _ => none

/-- The operands of the comparisons that stand in an expression. -/
def Expr.comparisons (e : Expr) : List (Expr × Expr) := e.parts.filterMap Expr.compared?

def Stmt.comparisons (s : Stmt) : List (Expr × Expr) := s.parts.filterMap Expr.compared?

def Function.comparisons (fn : Function) : List (Expr × Expr) := fn.parts.filterMap Expr.compared?

/-! ## Types of operands -/

/-- The built-in types of numbers. -/
def numberTypes : List String := [
  "int", "int8", "int16", "int32", "int64", "uint8", "uint16", "uint32", "uint64", "float32",
  "float64"]

/-- The types whose values are sure to be comparable: pointers, flags, strings and numbers. -/
def TypeRef.isComparable : TypeRef → Bool
  | .pointer _ => true
  | .named name => name = "bool" || name = "string" || name ∈ numberTypes
  | _ => false

/-- The declarations that the code of a file refers to: those of the file, and those of the package
of entities. -/
structure Visible where
  own : List Item
  entityPath : String
  entities : List Item

namespace Visible

variable (w : Visible)

/-- A field of a struct, or of the struct that it embeds. Which of two fields with one name is meant
does not matter here. -/
inductive HasField : TypeRef → String → TypeRef → Prop
  | own {struct : String} {fields : List Field} {name : String} {type : TypeRef}
      {tags : List (String × String)} (hstruct : .struct struct fields ∈ w.own)
      (hfield : ⟨some name, type, tags⟩ ∈ fields) : HasField (.named struct) name type
  | entity {struct : String} {fields : List Field} {name : String} {type : TypeRef}
      {tags : List (String × String)} (hstruct : .struct struct fields ∈ w.entities)
      (hfield : ⟨some name, type, tags⟩ ∈ fields) :
      HasField (.qualified w.entityPath struct) name type
  | embedded {struct : String} {fields : List Field} {target : TypeRef} {name : String}
      {type : TypeRef} (hstruct : .struct struct fields ∈ w.own)
      (hembedded : .embedded (.pointer target) ∈ fields) (hfield : HasField target name type) :
      HasField (.named struct) name type

/-- The type of a variable of a function: of a parameter, of a pointer to a new value, or of an
element of a field. -/
inductive VariableType (fn : Function) : String → TypeRef → Prop
  | receiver {x : String} {type : TypeRef} (h : fn.receiver = some ⟨x, type⟩) :
      VariableType fn x type
  | param {x : String} {type : TypeRef} (h : ⟨x, type⟩ ∈ fn.signature.params) :
      VariableType fn x type
  | made {x : String} {type : TypeRef}
      (h : .define [x] (.addr (.composite type [])) ∈ fn.body) : VariableType fn x (.pointer type)
  | element {x base name : String} {target type : TypeRef} {body : List Stmt}
      (h : .range none x (.field (.ident base) name) body ∈ fn.body)
      (hbase : VariableType fn base (.pointer target))
      (hfield : w.HasField target name (.slice type)) : VariableType fn x type

/-- The types that an operand can have. A numeral has every type of numbers. -/
inductive OperandType (fn : Function) : Expr → TypeRef → Prop
  | var {x : String} {type : TypeRef} (h : w.VariableType fn x type) :
      OperandType fn (.ident x) type
  | field {x name : String} {target type : TypeRef} (h : w.VariableType fn x (.pointer target))
      (hfield : w.HasField target name type) : OperandType fn (.field (.ident x) name) type
  | method {x r : String} {target type : TypeRef} {method : Function} {args : List Expr}
      (h : w.VariableType fn x target) (hmethod : .func method ∈ w.own)
      (hreceiver : method.receiver = some ⟨r, target⟩)
      (hresults : method.signature.results = [type]) :
      OperandType fn (.method (.ident x) method.signature.name args) type
  | length (e : Expr) : OperandType fn (.call (.ident "len") [e]) (.named "int")
  | number (value : Int) {name : String} (h : name ∈ numberTypes) :
      OperandType fn (.int value) (.named name)
  | text (value : String) : OperandType fn (.str value) (.named "string")
  | flag {name : String} (h : name ∈ ["true", "false"]) :
      OperandType fn (.ident name) (.named "bool")

/-- One operand is `nil`, or both have one type whose values can be compared. -/
def Admits (fn : Function) (operands : Expr × Expr) : Prop :=
  operands.1 = .nil ∨ operands.2 = .nil ∨
    ∃ type, w.OperandType fn operands.1 type ∧ w.OperandType fn operands.2 type ∧
      type.isComparable = true

/-- The function compares only what can be compared. -/
def Compares (fn : Function) : Prop := ∀ operands ∈ fn.comparisons, w.Admits fn operands

end Visible

/-! ## Comparisons of composed code -/

namespace Expr

theorem filterMap_compared?_parts (es : List Expr) :
    (es.flatMap parts).filterMap compared? = es.flatMap comparisons := by
  rw [List.filterMap_flatMap]
  rfl

@[simp] theorem comparisons_ident (name : String) : (ident name).comparisons = [] := rfl

@[simp] theorem comparisons_qualified (package name : String) :
    (qualified package name).comparisons = [] := rfl

@[simp] theorem comparisons_nil : nil.comparisons = [] := rfl

@[simp] theorem comparisons_str (value : String) : (str value).comparisons = [] := rfl

@[simp] theorem comparisons_int (value : Int) : (int value).comparisons = [] := rfl

@[simp] theorem comparisons_type (t : TypeRef) : (type t).comparisons = [] := rfl

@[simp] theorem comparisons_zeroValue (e : EntityType) : e.zeroValue.comparisons = [] := by
  cases e <;> rfl

@[simp] theorem comparisons_field (base : Expr) (name : String) :
    (field base name).comparisons = base.comparisons := rfl

@[simp] theorem comparisons_call (callee : Expr) (args : List Expr) :
    (call callee args).comparisons = callee.comparisons ++ args.flatMap comparisons := by
  rw [comparisons, parts_call, List.filterMap_cons_none rfl, List.filterMap_append,
    filterMap_compared?_parts]
  rfl

@[simp] theorem comparisons_index (base position : Expr) :
    (index base position).comparisons = base.comparisons ++ position.comparisons := by
  show (base.parts ++ position.parts).filterMap compared? = _
  rw [List.filterMap_append]
  rfl

@[simp] theorem comparisons_paren (e : Expr) : (paren e).comparisons = e.comparisons := rfl

@[simp] theorem comparisons_unary (op : UnaryOp) (operand : Expr) :
    (unary op operand).comparisons = operand.comparisons := rfl

@[simp] theorem comparisons_binary (left right : Expr) (op : BinaryOp) :
    (binary left op right).comparisons =
      (compared? (binary left op right)).toList ++ (left.comparisons ++ right.comparisons) := by
  have hoperands : (left.parts ++ right.parts).filterMap compared? =
      left.comparisons ++ right.comparisons := by
    rw [List.filterMap_append]
    rfl
  rw [comparisons, parts_binary, List.filterMap_cons, hoperands]
  cases op <;> rfl

@[simp] theorem comparisons_composite (type : TypeRef) (fields : List (String × Expr)) :
    (composite type fields).comparisons = fields.flatMap (·.2.comparisons) := by
  rw [comparisons, parts_composite, List.filterMap_cons_none rfl, List.filterMap_flatMap]
  rfl

@[simp] theorem comparisons_slice (element : TypeRef) (elements : List Expr) :
    (slice element elements).comparisons = elements.flatMap comparisons := by
  rw [comparisons, parts, inner, partsOf_eq_flatMap, List.filterMap_cons_none rfl,
    filterMap_compared?_parts]

@[simp] theorem comparisons_map (key value : TypeRef) (entries : List (Expr × Expr)) :
    (map key value entries).comparisons =
      entries.flatMap fun e => e.1.comparisons ++ e.2.comparisons := by
  rw [comparisons, parts_map, List.filterMap_cons_none rfl, List.filterMap_flatMap]
  simp only [List.filterMap_append]
  rfl

@[simp] theorem comparisons_func (params : List Param) (results : List TypeRef)
    (body : List Stmt) :
    (func params results body).comparisons = body.flatMap Stmt.comparisons := by
  rw [comparisons, parts_func, List.filterMap_cons_none rfl, List.filterMap_flatMap]
  rfl

end Expr

namespace Stmt

@[simp] theorem comparisons_expr (e : Expr) : (expr e).comparisons = e.comparisons := rfl

@[simp] theorem comparisons_define (names : List String) (value : Expr) :
    (define names value).comparisons = value.comparisons := rfl

@[simp] theorem comparisons_assign (target value : Expr) :
    (assign target value).comparisons = target.comparisons ++ value.comparisons := by
  rw [comparisons, parts_assign, List.filterMap_append]
  rfl

@[simp] theorem comparisons_declare (name : String) (type : TypeRef) :
    (declare name type).comparisons = [] := rfl

@[simp] theorem comparisons_ret (values : List Expr) :
    (ret values).comparisons = values.flatMap Expr.comparisons := by
  rw [comparisons, parts_ret, Expr.filterMap_compared?_parts]

theorem filterMap_compared?_parts (body : List Stmt) :
    (body.flatMap parts).filterMap Expr.compared? = body.flatMap comparisons := by
  rw [List.filterMap_flatMap]
  rfl

@[simp] theorem comparisons_when (init : Option Stmt) (condition : Expr) (body : List Stmt) :
    (Stmt.when init condition body).comparisons =
      init.toList.flatMap comparisons ++ (condition.comparisons ++ body.flatMap comparisons) := by
  rw [comparisons, parts_when, List.filterMap_append, List.filterMap_append,
    filterMap_compared?_parts, filterMap_compared?_parts]
  rfl

@[simp] theorem comparisons_range (key : Option String) (value : String) (source : Expr)
    (body : List Stmt) :
    (range key value source body).comparisons =
      source.comparisons ++ body.flatMap comparisons := by
  rw [comparisons, parts, partsOf_eq_flatMap, ← List.cons_append, List.filterMap_append,
    filterMap_compared?_parts]
  rfl

@[simp] theorem comparisons_count (counter : String) (first bound : Expr) (body : List Stmt) :
    (count counter first bound body).comparisons =
      first.comparisons ++ (bound.comparisons ++ body.flatMap comparisons) := by
  show (first.parts ++ (bound.parts ++ Stmt.partsOf body)).filterMap Expr.compared? = _
  rw [partsOf_eq_flatMap, List.filterMap_append, List.filterMap_append, filterMap_compared?_parts]
  rfl

end Stmt

theorem Function.comparisons_eq (fn : Function) :
    fn.comparisons = fn.body.flatMap Stmt.comparisons :=
  Stmt.filterMap_compared?_parts fn.body

/-! ## Comparisons of the shared fragments -/

@[simp] theorem comparisons_failed : failed.comparisons = [(.ident "err", .nil)] := rfl

@[simp] theorem comparisons_trace (t : Target) (e : Expr) :
    (t.trace e).comparisons = e.comparisons := by
  simp [Target.trace]

@[simp] theorem comparisons_checkErr (t : Target) (values : List Expr) :
    (checkErr t values).comparisons =
      (.ident "err", .nil) :: values.flatMap Expr.comparisons := by
  simp [checkErr, Target.traceErr]

@[simp] theorem comparisons_tryCall (t : Target) (call : Expr) (values : List Expr) :
    (tryCall t call values).comparisons =
      call.comparisons ++ (.ident "err", .nil) :: values.flatMap Expr.comparisons := by
  simp [tryCall, Target.traceErr]

/-! ## Operands that can be compared -/

theorem isComparable_valueType (e : EntityType) : e.valueType.isComparable = e.isComparable := by
  cases e <;> decide

namespace Visible

variable {w : Visible} {fn : Function}

/-- The zero of a type is `nil`, or it has the type and the type is comparable. -/
theorem operandType_zeroValue (e : EntityType) :
    e.zeroValue = .nil ∨
      w.OperandType fn e.zeroValue e.valueType ∧ e.valueType.isComparable = true := by
  cases e with
  | timestamp | bytes | strings => exact .inl rfl
  | string => exact .inr ⟨.text _, rfl⟩
  | bool => exact .inr ⟨.flag (by decide), rfl⟩
  | _ => exact .inr ⟨.number 0 (by decide), rfl⟩

/-- An operand can be compared with the zero of its type. -/
theorem admits_zeroValue {operand : Expr} {e : EntityType}
    (h : w.OperandType fn operand e.valueType) : w.Admits fn (operand, e.zeroValue) := by
  rcases w.operandType_zeroValue e with hnil | ⟨hzero, hcomparable⟩
  · exact .inr (.inl hnil)
  · exact .inr (.inr ⟨_, h, hzero, hcomparable⟩)

@[simp] theorem admits_nil (operand : Expr) : w.Admits fn (operand, .nil) := .inr (.inl rfl)

end Visible

end Tablewright.Code
