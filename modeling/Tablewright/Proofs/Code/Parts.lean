import Tablewright.Target

/-! What stands in code: the declarations of a file, and the expressions in a function, however
deep, with the calls among them. What a piece of code selects from a variable or calls is read off
its parts. -/

namespace Tablewright.Code

mutual

/-- The expressions that stand in an expression below it, those in the bodies of function literals
included. -/
def Expr.inner : Expr → List Expr
  | .ident _ | .qualified _ _ | .nil | .str _ | .int _ | .type _ => []
  | .field base _ => base :: base.inner
  | .call callee args => callee :: (callee.inner ++ Expr.partsOf args)
  | .index base position => base :: (base.inner ++ position :: position.inner)
  | .unary _ operand => operand :: operand.inner
  | .binary left _ right => left :: (left.inner ++ right :: right.inner)
  | .paren operand => operand :: operand.inner
  | .composite _ fields => Expr.partsOfFields fields
  | .slice _ elements => Expr.partsOf elements
  | .map _ _ entries => Expr.partsOfEntries entries
  | .func _ _ body => Stmt.partsOf body

def Expr.partsOf : List Expr → List Expr
  | [] => []
  | e :: es => e :: (e.inner ++ Expr.partsOf es)

def Expr.partsOfFields : List (String × Expr) → List Expr
  | [] => []
  | (_, value) :: rest => value :: (value.inner ++ Expr.partsOfFields rest)

def Expr.partsOfEntries : List (Expr × Expr) → List Expr
  | [] => []
  | (key, value) :: rest =>
    key :: (key.inner ++ value :: (value.inner ++ Expr.partsOfEntries rest))

/-- The expressions that stand in a statement. -/
def Stmt.parts : Stmt → List Expr
  | .expr e => e :: e.inner
  | .define _ value => value :: value.inner
  | .assign target value => target :: (target.inner ++ value :: value.inner)
  | .declare _ _ => []
  | .ret values => Expr.partsOf values
  | .when init condition body =>
    Stmt.partsOfInit init ++ condition :: (condition.inner ++ Stmt.partsOf body)
  | .range _ _ source body => source :: (source.inner ++ Stmt.partsOf body)
  | .count _ first bound body =>
    first :: (first.inner ++ bound :: (bound.inner ++ Stmt.partsOf body))

def Stmt.partsOfInit : Option Stmt → List Expr
  | none => []
  | some s => s.parts

def Stmt.partsOf : List Stmt → List Expr
  | [] => []
  | s :: rest => s.parts ++ Stmt.partsOf rest

end

/-- The expressions that stand in an expression, itself first. -/
def Expr.parts (e : Expr) : List Expr := e :: e.inner

/-- The expressions that stand in the body of a function. -/
def Function.parts (f : Function) : List Expr := f.body.flatMap Stmt.parts

/-- A method of a value, called with arguments. -/
structure Call where
  receiver : Expr
  method : String
  args : List Expr

def Expr.call? : Expr → Option Call
  | .call (.field receiver method) args => some ⟨receiver, method, args⟩
  | _ => none

/-- The method calls that stand in an expression, the outer before the inner. -/
def Expr.calls (e : Expr) : List Call := e.parts.filterMap Expr.call?

/-! ## Declarations of a file -/

/-- The function is a method of the type with this name. -/
def Function.isMethodOf (type : String) (fn : Function) : Bool :=
  match fn.receiver with
  | some ⟨_, .pointer (.named name)⟩ => name = type
  | _ => false

/-- The function that an item declares, if it is a method of the type with this name. -/
def Item.methodOf? (type : String) (item : Item) : Option Function :=
  item.function?.filter (·.isMethodOf type)

/-- The fields of a struct with this name. -/
def Item.fields? (type : String) : Item → Option (List Field)
  | .struct name fields => if name = type then some fields else none
  | _ => none

/-- The methods of an interface with this name. -/
def Item.methods? (type : String) : Item → Option (List Signature)
  | .interface name methods => if name = type then some methods else none
  | _ => none

namespace SourceFile

def functions (file : SourceFile) : List Function := file.items.filterMap Item.function?

/-- The methods that the file declares for a type, in order. -/
def methodsOf (file : SourceFile) (type : String) : List Function :=
  file.functions.filter (·.isMethodOf type)

/-- The fields that the file declares for a type. -/
def fields? (file : SourceFile) (type : String) : Option (List Field) :=
  file.items.findSome? (Item.fields? type)

/-- The methods that the file declares for an interface. -/
def methods? (file : SourceFile) (type : String) : Option (List Signature) :=
  file.items.findSome? (Item.methods? type)

theorem mem_functions {file : SourceFile} {fn : Function} :
    fn ∈ file.functions ↔ Item.func fn ∈ file.items := by
  unfold functions
  rw [List.mem_filterMap]
  constructor
  · rintro ⟨item, hitem, hfn⟩
    cases item <;> cases hfn
    exact hitem
  · intro h
    exact ⟨_, h, rfl⟩

theorem functionNames_eq (file : SourceFile) :
    file.functionNames = file.functions.map (·.signature.name) := List.map_filterMap.symm

theorem map_methodsOf {α : Type} (file : SourceFile) (type : String) (f : Function → α) :
    (file.methodsOf type).map f = file.items.filterMap fun item => (item.methodOf? type).map f := by
  unfold methodsOf functions
  rw [List.filter_filterMap, List.map_filterMap]
  rfl

end SourceFile

/-! ### Methods of a type -/

section MethodOf

variable {type : String} (signature : Signature) (body : List Stmt)

@[simp] theorem Item.methodOf?_free : (free signature body).methodOf? type = none := rfl

theorem Item.methodOf?_method (x name : String) :
    (method ⟨x, .pointer (.named name)⟩ signature body).methodOf? type =
      if name = type then some ⟨some ⟨x, .pointer (.named name)⟩, signature, body⟩ else none := by
  simp [methodOf?, method, function?, Option.filter, Function.isMethodOf]

end MethodOf

/-! ## Parts of composed code -/

@[simp] theorem Expr.partsOf_eq_flatMap (es : List Expr) :
    Expr.partsOf es = es.flatMap Expr.parts := by
  induction es with
  | nil => rfl
  | cons e es ih => rw [Expr.partsOf, ih, List.flatMap_cons, Expr.parts, List.cons_append]

@[simp] theorem Expr.partsOfFields_eq_flatMap (fields : List (String × Expr)) :
    Expr.partsOfFields fields = fields.flatMap (·.2.parts) := by
  induction fields with
  | nil => rfl
  | cons field rest ih =>
    rw [Expr.partsOfFields, ih, List.flatMap_cons, Expr.parts, List.cons_append]

@[simp] theorem Expr.partsOfEntries_eq_flatMap (entries : List (Expr × Expr)) :
    Expr.partsOfEntries entries = entries.flatMap fun e => e.1.parts ++ e.2.parts := by
  induction entries with
  | nil => rfl
  | cons entry rest ih =>
    rw [Expr.partsOfEntries, ih, List.flatMap_cons]
    simp [Expr.parts]

@[simp] theorem Stmt.partsOf_eq_flatMap (body : List Stmt) :
    Stmt.partsOf body = body.flatMap Stmt.parts := by
  induction body with
  | nil => rfl
  | cons s rest ih => rw [Stmt.partsOf, ih, List.flatMap_cons]

@[simp] theorem Stmt.parts_expr (e : Expr) : (expr e).parts = e.parts := rfl

@[simp] theorem Stmt.parts_define (names : List String) (value : Expr) :
    (define names value).parts = value.parts := rfl

@[simp] theorem Stmt.parts_assign (target value : Expr) :
    (assign target value).parts = target.parts ++ value.parts := rfl

@[simp] theorem Stmt.parts_ret (values : List Expr) :
    (ret values).parts = values.flatMap Expr.parts := Expr.partsOf_eq_flatMap values

@[simp] theorem Stmt.parts_when (init : Option Stmt) (condition : Expr) (body : List Stmt) :
    (when init condition body).parts =
      init.toList.flatMap parts ++ (condition.parts ++ body.flatMap parts) := by
  rw [parts, partsOf_eq_flatMap]
  cases init with
  | none => rfl
  | some s =>
    rw [Option.toList_some, List.flatMap_singleton]
    rfl

namespace Expr

@[simp] theorem parts_ident (name : String) : (ident name).parts = [ident name] := rfl

@[simp] theorem parts_qualified (package name : String) :
    (qualified package name).parts = [qualified package name] := rfl

@[simp] theorem parts_nil : nil.parts = [nil] := rfl

@[simp] theorem parts_str (value : String) : (str value).parts = [str value] := rfl

@[simp] theorem parts_int (value : Int) : (int value).parts = [int value] := rfl

@[simp] theorem parts_zeroValue (e : EntityType) : e.zeroValue.parts = [e.zeroValue] := by
  cases e <;> rfl

@[simp] theorem parts_field (base : Expr) (name : String) :
    (field base name).parts = field base name :: base.parts := rfl

@[simp] theorem parts_call (callee : Expr) (args : List Expr) :
    (call callee args).parts = call callee args :: (callee.parts ++ args.flatMap parts) := by
  rw [parts, inner, partsOf_eq_flatMap]
  rfl

@[simp] theorem parts_unary (op : UnaryOp) (operand : Expr) :
    (unary op operand).parts = unary op operand :: operand.parts := rfl

@[simp] theorem parts_binary (left right : Expr) (op : BinaryOp) :
    (binary left op right).parts = binary left op right :: (left.parts ++ right.parts) := rfl

@[simp] theorem parts_composite (type : TypeRef) (fields : List (String × Expr)) :
    (composite type fields).parts = composite type fields :: fields.flatMap (·.2.parts) := by
  rw [parts, inner, partsOfFields_eq_flatMap]

@[simp] theorem parts_map (key value : TypeRef) (entries : List (Expr × Expr)) :
    (map key value entries).parts =
      map key value entries :: entries.flatMap fun e => e.1.parts ++ e.2.parts := by
  rw [parts, inner, partsOfEntries_eq_flatMap]

@[simp] theorem parts_func (params : List Param) (results : List TypeRef) (body : List Stmt) :
    (func params results body).parts = func params results body :: body.flatMap Stmt.parts := by
  rw [parts, inner, Stmt.partsOf_eq_flatMap]

/-- The zero of a type is no selection. -/
@[simp] theorem field_ne_zeroValue (base : Expr) (name : String) (e : EntityType) :
    field base name ≠ e.zeroValue := by
  cases e <;> simp [EntityType.zeroValue]

end Expr

/-! ## Calls of composed code -/

namespace Expr

theorem filterMap_call?_parts (es : List Expr) :
    (es.flatMap parts).filterMap call? = es.flatMap calls := by
  rw [List.filterMap_flatMap]
  rfl

@[simp] theorem calls_ident (name : String) : (ident name).calls = [] := rfl

@[simp] theorem calls_nil : nil.calls = [] := rfl

@[simp] theorem calls_str (value : String) : (str value).calls = [] := rfl

@[simp] theorem calls_zeroValue (e : EntityType) : e.zeroValue.calls = [] := by
  cases e <;> rfl

@[simp] theorem calls_field (base : Expr) (name : String) :
    (field base name).calls = base.calls := rfl

@[simp] theorem calls_unary (op : UnaryOp) (operand : Expr) :
    (unary op operand).calls = operand.calls := rfl

@[simp] theorem calls_binary (left right : Expr) (op : BinaryOp) :
    (binary left op right).calls = left.calls ++ right.calls := by
  rw [calls, parts_binary, List.filterMap_cons_none rfl, List.filterMap_append]
  rfl

@[simp] theorem calls_composite (type : TypeRef) (fields : List (String × Expr)) :
    (composite type fields).calls = fields.flatMap (·.2.calls) := by
  rw [calls, parts_composite, List.filterMap_cons_none rfl, List.filterMap_flatMap]
  rfl

@[simp] theorem calls_map (key value : TypeRef) (entries : List (Expr × Expr)) :
    (map key value entries).calls = entries.flatMap fun e => e.1.calls ++ e.2.calls := by
  rw [calls, parts_map, List.filterMap_cons_none rfl, List.filterMap_flatMap]
  simp only [List.filterMap_append]
  rfl

/-- A method call counts itself, then what its receiver and its arguments call. -/
@[simp] theorem calls_method (receiver : Expr) (name : String) (args : List Expr) :
    (receiver.method name args).calls =
      ⟨receiver, name, args⟩ :: (receiver.calls ++ args.flatMap calls) := by
  have hcall : (receiver.method name args).call? = some ⟨receiver, name, args⟩ := rfl
  rw [calls, method, parts_call, parts_field, List.cons_append, ← method,
    List.filterMap_cons_some hcall, List.filterMap_cons_none rfl, List.filterMap_append,
    filterMap_call?_parts]
  rfl

/-- A call of a function is no method call. -/
@[simp] theorem calls_call_ident (name : String) (args : List Expr) :
    (call (ident name) args).calls = args.flatMap calls := by
  rw [calls, parts_call, List.filterMap_cons_none rfl, List.filterMap_append,
    filterMap_call?_parts]
  rfl

@[simp] theorem calls_call_qualified (package name : String) (args : List Expr) :
    (call (qualified package name) args).calls = args.flatMap calls := by
  rw [calls, parts_call, List.filterMap_cons_none rfl, List.filterMap_append,
    filterMap_call?_parts]
  rfl

end Expr

end Tablewright.Code
