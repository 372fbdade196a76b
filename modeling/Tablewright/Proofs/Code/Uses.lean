import Tablewright.Proofs.Code.Types

/-! Where code goes through values that may be `nil`: a dereference, and a selection, which goes
through a pointer as well. Each is found with the scope in which it is evaluated and with what is
known to have been tested on every path to it, by the conditions around it and by the conjuncts
before it. -/

namespace Tablewright.Code

/-- A place where a value is gone through. -/
structure Use where
  scope : Scope
  /-- The expressions that were found not to be `nil`. -/
  known : List Expr
  target : Expr
  /-- The member that is selected, or none where the value is dereferenced. -/
  member : Option String

/-- The expressions that are not `nil` if the condition holds. -/
def Expr.tested : Expr → List Expr
  | .binary e .ne .nil => [e]
  | .binary left .and right => left.tested ++ right.tested
  | .paren e => e.tested
  | _ => []

/-- The statement leaves the variables as they are. -/
def Stmt.isQuiet : Stmt → Bool
  | .expr _ | .ret _ => true
  | _ => false

/-- What is known behind the statement before a condition, which may have changed variables. -/
def knownBehind (known : List Expr) (init : Option Stmt) : List Expr :=
  if init.isSome then [] else known

mutual

/-- The uses in an expression. Code in a function literal is run later, when nothing is known. -/
def Expr.uses (scope : Scope) (known : List Expr) : Expr → List Use
  | .ident _ | .qualified _ _ | .nil | .str _ | .int _ | .type _ => []
  | .field base name => ⟨scope, known, base, some name⟩ :: base.uses scope known
  | .call callee args => callee.uses scope known ++ Expr.usesOf scope known args
  | .index base position => base.uses scope known ++ position.uses scope known
  | .unary op operand =>
    (if op = .deref then [⟨scope, known, operand, none⟩] else []) ++ operand.uses scope known
  | .binary left op right =>
    left.uses scope known ++ right.uses scope (if op = .and then known ++ left.tested else known)
  | .paren e => e.uses scope known
  | .composite _ fields => Expr.usesOfFields scope known fields
  | .slice _ elements => Expr.usesOf scope known elements
  | .map _ _ entries => Expr.usesOfEntries scope known entries
  | .func params _ body => Stmt.usesOf (.ofParams params scope) [] body
termination_by structural e => e

def Expr.usesOf (scope : Scope) (known : List Expr) : List Expr → List Use
  | [] => []
  | e :: es => e.uses scope known ++ Expr.usesOf scope known es
termination_by structural es => es

def Expr.usesOfFields (scope : Scope) (known : List Expr) : List (String × Expr) → List Use
  | [] => []
  | (_, value) :: rest => value.uses scope known ++ Expr.usesOfFields scope known rest
termination_by structural fields => fields

def Expr.usesOfEntries (scope : Scope) (known : List Expr) : List (Expr × Expr) → List Use
  | [] => []
  | (key, value) :: rest =>
    key.uses scope known ++ value.uses scope known ++ Expr.usesOfEntries scope known rest
termination_by structural entries => entries

/-- The uses in a statement. Nothing is known inside a loop, which may have changed it. -/
def Stmt.uses (scope : Scope) (known : List Expr) : Stmt → List Use
  | .expr e => e.uses scope known
  | .define _ value => value.uses scope known
  | .assign target value => target.uses scope known ++ value.uses scope known
  | .declare _ _ => []
  | .ret values => Expr.usesOf scope known values
  | .when init condition body =>
    Stmt.usesOfInit scope known init ++
      condition.uses (scope.afterInit init) (knownBehind known init) ++
      Stmt.usesOf (scope.afterInit init) (knownBehind known init ++ condition.tested) body
  | .range key value source body =>
    source.uses scope known ++ Stmt.usesOf
      ((key.toList.map (·, .typed (.named "int")) ++ [(value, .element source)]) :: scope) [] body
  | .count counter first bound body =>
    first.uses scope known ++ bound.uses ([(counter, .result first 0)] :: scope) [] ++
      Stmt.usesOf ([(counter, .result first 0)] :: scope) [] body
termination_by structural s => s

def Stmt.usesOfInit (scope : Scope) (known : List Expr) : Option Stmt → List Use
  | some s => s.uses scope known
  | none => []
termination_by structural init => init

/-- The uses in a block. What is known of variables is known until one may have changed. -/
def Stmt.usesOf (scope : Scope) (known : List Expr) : List Stmt → List Use
  | [] => []
  | s :: rest =>
    s.uses scope known ++ Stmt.usesOf (scope.after s) (if s.isQuiet then known else []) rest
termination_by structural body => body

end

/-- The scope of the body of a function. -/
def Function.scope (fn : Function) : Scope :=
  .ofParams (fn.receiver.toList ++ fn.signature.params) []

def Function.uses (fn : Function) : List Use := Stmt.usesOf fn.scope [] fn.body

/-! ## Uses in composed code -/

section Composed

variable {scope : Scope} {known : List Expr}

@[simp] theorem Expr.usesOf_eq_flatMap (es : List Expr) :
    Expr.usesOf scope known es = es.flatMap (Expr.uses scope known) := by
  induction es with
  | nil => rfl
  | cons e es ih => rw [Expr.usesOf, ih, List.flatMap_cons]

@[simp] theorem Expr.usesOfFields_eq_flatMap (fields : List (String × Expr)) :
    Expr.usesOfFields scope known fields = fields.flatMap (·.2.uses scope known) := by
  induction fields with
  | nil => rfl
  | cons field rest ih => rw [Expr.usesOfFields, ih, List.flatMap_cons]

@[simp] theorem Expr.usesOfEntries_eq_flatMap (entries : List (Expr × Expr)) :
    Expr.usesOfEntries scope known entries =
      entries.flatMap fun e => e.1.uses scope known ++ e.2.uses scope known := by
  induction entries with
  | nil => rfl
  | cons entry rest ih => rw [Expr.usesOfEntries, ih, List.flatMap_cons]

attribute [simp] Expr.uses Expr.tested Stmt.uses Stmt.usesOfInit knownBehind

@[simp] theorem Stmt.usesOf_nil : Stmt.usesOf scope known [] = [] := rfl

@[simp] theorem Stmt.usesOf_cons (s : Stmt) (rest : List Stmt) :
    Stmt.usesOf scope known (s :: rest) =
      s.uses scope known ++
        Stmt.usesOf (scope.after s) (if s.isQuiet then known else []) rest := rfl

/-- Where nothing is known in advance, a block is read piece by piece. -/
@[simp] theorem Stmt.usesOf_append (before rest : List Stmt) :
    Stmt.usesOf scope [] (before ++ rest) =
      Stmt.usesOf scope [] before ++ Stmt.usesOf (before.foldl Scope.after scope) [] rest := by
  induction before generalizing scope with
  | nil => rfl
  | cons s before ih =>
    rw [List.cons_append, usesOf_cons, usesOf_cons, ite_self, ih, List.foldl_cons,
      List.append_assoc]

/-- Statements of one form that introduce no variables. -/
theorem Stmt.usesOf_map {α : Type} {f : α → Stmt} (h : ∀ a scope, Scope.after scope (f a) = scope)
    (l : List α) : Stmt.usesOf scope [] (l.map f) = l.flatMap fun a => (f a).uses scope [] := by
  induction l with
  | nil => rfl
  | cons a l ih => rw [List.map_cons, usesOf_cons, ite_self, h, ih, List.flatMap_cons]

theorem Scope.foldl_after_map {α : Type} {f : α → Stmt}
    (h : ∀ a scope, Scope.after scope (f a) = scope) (l : List α) :
    (l.map f).foldl Scope.after scope = scope := by
  induction l with
  | nil => rfl
  | cons a l ih => rw [List.map_cons, List.foldl_cons, h, ih]

namespace Expr

@[simp] theorem uses_method (e : Expr) (name : String) (args : List Expr) :
    (e.method name args).uses scope known =
      ⟨scope, known, e, some name⟩ :: e.uses scope known ++ args.flatMap (uses scope known) := by
  simp [method]

@[simp] theorem uses_addr (e : Expr) : e.addr.uses scope known = e.uses scope known := by
  simp [addr]

@[simp] theorem uses_deref (e : Expr) :
    e.deref.uses scope known = ⟨scope, known, e, none⟩ :: e.uses scope known := by
  simp [deref]

@[simp] theorem uses_not (e : Expr) : e.not.uses scope known = e.uses scope known := by
  simp [not]

@[simp] theorem uses_eq (a b : Expr) :
    (a.eq b).uses scope known = a.uses scope known ++ b.uses scope known := by
  simp [eq]

@[simp] theorem uses_ne (a b : Expr) :
    (a.ne b).uses scope known = a.uses scope known ++ b.uses scope known := by
  simp [ne]

@[simp] theorem uses_and (a b : Expr) :
    (a.and b).uses scope known = a.uses scope known ++ b.uses scope (known ++ a.tested) := by
  simp [and]

@[simp] theorem uses_or (a b : Expr) :
    (a.or b).uses scope known = a.uses scope known ++ b.uses scope known := by
  simp [or]

@[simp] theorem tested_ne_nil (e : Expr) : (e.ne .nil).tested = [e] := rfl

@[simp] theorem tested_eq (a b : Expr) : (a.eq b).tested = [] := rfl

@[simp] theorem tested_and (a b : Expr) : (a.and b).tested = a.tested ++ b.tested := rfl

@[simp] theorem uses_zeroValue (e : EntityType) : e.zeroValue.uses scope known = [] := by
  cases e <;> rfl

end Expr

variable (t : Target)

@[simp] theorem uses_failed : failed.uses scope known = [] := by simp [failed]

@[simp] theorem tested_failed : failed.tested = [.ident "err"] := rfl

@[simp] theorem uses_trace (e : Expr) : (t.trace e).uses scope known = e.uses scope known := by
  simp [Target.trace]

@[simp] theorem after_checkErr (values : List Expr) : scope.after (checkErr t values) = scope := rfl

@[simp] theorem after_tryCall (call : Expr) (values : List Expr) :
    scope.after (tryCall t call values) = scope := rfl

@[simp] theorem uses_checkErr (values : List Expr) :
    (checkErr t values).uses scope known =
      values.flatMap (Expr.uses scope (known ++ [.ident "err"])) := by
  simp [checkErr, Target.traceErr]

@[simp] theorem uses_tryCall (call : Expr) (values : List Expr) :
    (tryCall t call values).uses scope known = call.uses scope known ++
      values.flatMap (Expr.uses ([("err", .result call 0)] :: scope) [.ident "err"]) := by
  simp [tryCall, Target.traceErr]

end Composed

end Tablewright.Code
