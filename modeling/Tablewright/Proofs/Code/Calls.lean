import Tablewright.Proofs.Code.Parts

/-! The method calls in a function, however deep, and the transaction that it takes. -/

namespace Tablewright.Code

/-- The method calls that stand in a statement. -/
def Stmt.calls (s : Stmt) : List Call := s.parts.filterMap Expr.call?

namespace Function

/-- The method calls that stand in the body of a function. -/
def calls (fn : Function) : List Call := fn.body.flatMap Stmt.calls

/-- An expression of the function that is a transaction: what the data access gives for one, or a
variable that holds it. -/
inductive Transaction (fn : Function) : Expr → Prop
  | taken : fn.Transaction (.method (.ident "d") "txGetter" [])
  | given (args : List Expr) : fn.Transaction (.call (.ident "txGetter") args)
  | held {x : String} {others : List String} {value : Expr} :
    .define (x :: others) value ∈ fn.body → fn.Transaction value → fn.Transaction (.ident x)

end Function

/-! ## Calls of composed code -/

namespace Stmt

@[simp] theorem calls_expr (e : Expr) : (expr e).calls = e.calls := rfl

@[simp] theorem calls_define (names : List String) (value : Expr) :
    (define names value).calls = value.calls := rfl

@[simp] theorem calls_assign (target value : Expr) :
    (assign target value).calls = target.calls ++ value.calls := by
  rw [calls, parts_assign, List.filterMap_append]
  rfl

@[simp] theorem calls_ret (values : List Expr) :
    (ret values).calls = values.flatMap Expr.calls := by
  rw [calls, parts_ret, Expr.filterMap_call?_parts]

@[simp] theorem calls_when (init : Option Stmt) (condition : Expr) (body : List Stmt) :
    (when init condition body).calls =
      init.toList.flatMap calls ++ (condition.calls ++ body.flatMap calls) := by
  rw [calls, parts_when, List.filterMap_append, List.filterMap_append, List.filterMap_flatMap,
    List.filterMap_flatMap]
  rfl

end Stmt

namespace Expr

@[simp] theorem calls_func (params : List Param) (results : List TypeRef) (body : List Stmt) :
    (func params results body).calls = body.flatMap Stmt.calls := by
  rw [calls, parts_func, List.filterMap_cons_none rfl, List.filterMap_flatMap]
  rfl

end Expr

variable (t : Target)

@[simp] theorem calls_checkErr (values : List Expr) :
    (checkErr t values).calls = values.flatMap Expr.calls := by
  simp [checkErr, failed, Expr.ne, Target.traceErr, Target.trace]

@[simp] theorem calls_tryCall (call : Expr) (values : List Expr) :
    (tryCall t call values).calls = call.calls ++ values.flatMap Expr.calls := by
  simp [tryCall, failed, Expr.ne, Target.traceErr, Target.trace]

end Tablewright.Code
