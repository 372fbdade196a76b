import Mathlib.Data.List.Nodup
import Tablewright.Target

/-! The packages that code refers to, and files whose imports are tight: the compiler of the
generated language refuses a reference to a package that is not imported, and also an import that
nothing refers to. References stand in types and in expressions, however deep. -/

namespace Tablewright.Code

/-! ## References -/

mutual

/-- The import paths of the packages that a type refers to. -/
def TypeRef.packages : TypeRef → List String
  | .named _ => []
  | .qualified package _ => [package]
  | .pointer target => target.packages
  | .slice element => element.packages
  | .map key value => key.packages ++ value.packages
  | .func params results => TypeRef.packagesOf params ++ TypeRef.packagesOf results
  | .any => []

def TypeRef.packagesOf : List TypeRef → List String
  | [] => []
  | t :: ts => t.packages ++ TypeRef.packagesOf ts

end

def Param.packages (p : Param) : List String := p.type.packages

def Signature.packages (s : Signature) : List String :=
  s.params.flatMap Param.packages ++ s.results.flatMap TypeRef.packages

mutual

/-- The import paths of the packages that an expression refers to. -/
def Expr.packages : Expr → List String
  | .ident _ | .nil | .str _ | .int _ => []
  | .qualified package _ => [package]
  | .type type => type.packages
  | .field base _ => base.packages
  | .call callee args => callee.packages ++ Expr.packagesOf args
  | .index base position => base.packages ++ position.packages
  | .unary _ operand => operand.packages
  | .binary left _ right => left.packages ++ right.packages
  | .paren inner => inner.packages
  | .composite type fields => type.packages ++ Expr.packagesOfFields fields
  | .slice element elements => element.packages ++ Expr.packagesOf elements
  | .map key value entries => key.packages ++ value.packages ++ Expr.packagesOfEntries entries
  | .func params results body =>
    params.flatMap Param.packages ++ results.flatMap TypeRef.packages ++ Stmt.packagesOf body

def Expr.packagesOf : List Expr → List String
  | [] => []
  | e :: es => e.packages ++ Expr.packagesOf es

def Expr.packagesOfFields : List (String × Expr) → List String
  | [] => []
  | (_, value) :: rest => value.packages ++ Expr.packagesOfFields rest

def Expr.packagesOfEntries : List (Expr × Expr) → List String
  | [] => []
  | (key, value) :: rest => key.packages ++ value.packages ++ Expr.packagesOfEntries rest

/-- The import paths of the packages that a statement refers to. -/
def Stmt.packages : Stmt → List String
  | .expr e => e.packages
  | .define _ value => value.packages
  | .assign target value => target.packages ++ value.packages
  | .declare _ type => type.packages
  | .ret values => Expr.packagesOf values
  | .when init condition body =>
    Stmt.packagesOfInit init ++ condition.packages ++ Stmt.packagesOf body
  | .range _ _ source body => source.packages ++ Stmt.packagesOf body
  | .count _ first bound body => first.packages ++ bound.packages ++ Stmt.packagesOf body

def Stmt.packagesOfInit : Option Stmt → List String
  | none => []
  | some s => s.packages

def Stmt.packagesOf : List Stmt → List String
  | [] => []
  | s :: rest => s.packages ++ Stmt.packagesOf rest

end

def Field.packages (f : Field) : List String := f.type.packages

/-- The import paths of the packages that a declaration refers to. -/
def Item.packages : Item → List String
  | .struct _ fields => fields.flatMap Field.packages
  | .typeName _ type => type.packages
  | .interface _ methods => methods.flatMap Signature.packages
  | .func f =>
    f.receiver.toList.flatMap Param.packages ++ f.signature.packages ++ Stmt.packagesOf f.body

def SourceFile.packages (file : SourceFile) : List String := file.items.flatMap Item.packages

/-- The imports of a file are the packages that it refers to, each once. -/
structure SourceFile.TightImports (file : SourceFile) : Prop where
  mem_iff : ∀ p, p ∈ file.packages ↔ p ∈ file.imports
  distinct : file.imports.Nodup

/-! ## References of composed code -/

@[simp] theorem TypeRef.packagesOf_eq_flatMap (ts : List TypeRef) :
    TypeRef.packagesOf ts = ts.flatMap TypeRef.packages := by
  induction ts with
  | nil => rfl
  | cons t ts ih => rw [TypeRef.packagesOf, ih, List.flatMap_cons]

@[simp] theorem Expr.packagesOf_eq_flatMap (es : List Expr) :
    Expr.packagesOf es = es.flatMap Expr.packages := by
  induction es with
  | nil => rfl
  | cons e es ih => rw [Expr.packagesOf, ih, List.flatMap_cons]

@[simp] theorem Expr.packagesOfFields_eq_flatMap (fields : List (String × Expr)) :
    Expr.packagesOfFields fields = fields.flatMap (·.2.packages) := by
  induction fields with
  | nil => rfl
  | cons field rest ih => rw [Expr.packagesOfFields, ih, List.flatMap_cons]

@[simp] theorem Expr.packagesOfEntries_eq_flatMap (entries : List (Expr × Expr)) :
    Expr.packagesOfEntries entries = entries.flatMap fun e => e.1.packages ++ e.2.packages := by
  induction entries with
  | nil => rfl
  | cons entry rest ih => rw [Expr.packagesOfEntries, ih, List.flatMap_cons]

@[simp] theorem Stmt.packagesOf_eq_flatMap (body : List Stmt) :
    Stmt.packagesOf body = body.flatMap Stmt.packages := by
  induction body with
  | nil => rfl
  | cons s rest ih => rw [Stmt.packagesOf, ih, List.flatMap_cons]

attribute [simp] TypeRef.packages Expr.packages Stmt.packages Stmt.packagesOfInit

@[simp] theorem TypeRef.packages_error : TypeRef.error.packages = [] := rfl

@[simp] theorem Param.packages_mk (name : String) (type : TypeRef) :
    (Param.mk name type).packages = type.packages := rfl

@[simp] theorem Signature.packages_mk (name : String) (params : List Param)
    (results : List TypeRef) :
    (Signature.mk name params results).packages =
      params.flatMap Param.packages ++ results.flatMap TypeRef.packages := rfl

@[simp] theorem Expr.packages_method (e : Expr) (name : String) (args : List Expr) :
    (e.method name args).packages = e.packages ++ args.flatMap Expr.packages := by
  simp [Expr.method]

@[simp] theorem Expr.packages_addr (e : Expr) : e.addr.packages = e.packages := by
  simp [Expr.addr]

@[simp] theorem Expr.packages_deref (e : Expr) : e.deref.packages = e.packages := by
  simp [Expr.deref]

@[simp] theorem Expr.packages_not (e : Expr) : e.not.packages = e.packages := by
  simp [Expr.not]

@[simp] theorem Expr.packages_eq (a b : Expr) : (a.eq b).packages = a.packages ++ b.packages := by
  simp [Expr.eq]

@[simp] theorem Expr.packages_ne (a b : Expr) : (a.ne b).packages = a.packages ++ b.packages := by
  simp [Expr.ne]

@[simp] theorem Expr.packages_and (a b : Expr) : (a.and b).packages = a.packages ++ b.packages := by
  simp [Expr.and]

@[simp] theorem Expr.packages_or (a b : Expr) : (a.or b).packages = a.packages ++ b.packages := by
  simp [Expr.or]

@[simp] theorem Field.packages_mk (name : Option String) (type : TypeRef)
    (tags : List (String × String)) : (Field.mk name type tags).packages = type.packages := rfl

@[simp] theorem Field.packages_plain (name : String) (type : TypeRef) :
    (Field.plain name type).packages = type.packages := rfl

@[simp] theorem Field.packages_embedded (type : TypeRef) :
    (Field.embedded type).packages = type.packages := rfl

@[simp] theorem Item.packages_struct (name : String) (fields : List Field) :
    (Item.struct name fields).packages = fields.flatMap Field.packages := rfl

@[simp] theorem Item.packages_typeName (name : String) (type : TypeRef) :
    (Item.typeName name type).packages = type.packages := rfl

@[simp] theorem Item.packages_interface (name : String) (methods : List Signature) :
    (Item.interface name methods).packages = methods.flatMap Signature.packages := rfl

@[simp] theorem Item.packages_free (s : Signature) (body : List Stmt) :
    (Item.free s body).packages = s.packages ++ body.flatMap Stmt.packages := by
  simp [Item.free, Item.packages]

@[simp] theorem Item.packages_method (receiver : Param) (s : Signature) (body : List Stmt) :
    (Item.method receiver s body).packages =
      receiver.packages ++ s.packages ++ body.flatMap Stmt.packages := by
  simp [Item.method, Item.packages]

/-! ## References of the shared fragments -/

@[simp] theorem packages_rapidashType (t : Target) (name : String) :
    (t.rapidashType name).packages = [t.rapidashPath] := by
  simp [Target.rapidashType]

@[simp] theorem packages_trace (t : Target) (e : Expr) :
    (t.trace e).packages = t.errorsPath :: e.packages := by
  simp [Target.trace]

@[simp] theorem packages_checkErr (t : Target) (values : List Expr) :
    (checkErr t values).packages = values.flatMap Expr.packages ++ [t.errorsPath] := by
  simp [checkErr, failed, Target.traceErr]

@[simp] theorem packages_tryCall (t : Target) (call : Expr) (values : List Expr) :
    (tryCall t call values).packages =
      call.packages ++ values.flatMap Expr.packages ++ [t.errorsPath] := by
  simp [tryCall, failed, Target.traceErr]

/-- Of the types of values, only points in time come from a package. -/
@[simp] theorem mem_packages_valueType {e : EntityType} {p : String} :
    p ∈ e.valueType.packages ↔ e = .timestamp ∧ p = timePath := by
  cases e <;> simp [EntityType.valueType]

@[simp] theorem packages_zeroValue (e : EntityType) : e.zeroValue.packages = [] := by
  cases e <;> rfl

/-! ## Recorded imports -/

namespace SourceFile

theorem mem_addImport {imports : List String} {path p : String} :
    p ∈ addImport imports path ↔ p ∈ imports ∨ p = path := by
  unfold addImport
  split
  · rename_i h
    have hpath : path ∈ imports := by simpa using h
    constructor
    · exact .inl
    · intro hp
      rcases hp with hp | rfl
      · exact hp
      · exact hpath
  · rw [List.mem_append, List.mem_singleton]

theorem nodup_addImport {imports : List String} (h : imports.Nodup) (path : String) :
    (addImport imports path).Nodup := by
  unfold addImport
  split
  · exact h
  · rename_i hpath
    rw [← List.concat_eq_append]
    exact h.concat (by simpa using hpath)

/-- Recording one path after another keeps the imports distinct and loses none. -/
theorem mem_foldl_addImport {imports paths : List String} {p : String} :
    p ∈ paths.foldl addImport imports ↔ p ∈ imports ∨ p ∈ paths := by
  induction paths generalizing imports with
  | nil => simp
  | cons path rest ih =>
    rw [List.foldl_cons, ih, mem_addImport, List.mem_cons, or_assoc]

theorem nodup_foldl_addImport {imports : List String} (h : imports.Nodup) (paths : List String) :
    (paths.foldl addImport imports).Nodup := by
  induction paths generalizing imports with
  | nil => exact h
  | cons path rest ih => exact ih (nodup_addImport h path)

theorem mem_imports_ofItems {package : String} {paths : List String} {items : List Item}
    {p : String} : p ∈ (ofItems package paths items).imports ↔ p ∈ paths := by
  unfold ofItems
  rw [mem_foldl_addImport]
  simp

theorem nodup_imports_ofItems {package : String} {paths : List String} {items : List Item} :
    (ofItems package paths items).imports.Nodup :=
  nodup_foldl_addImport List.nodup_nil paths

/-- A file has tight imports if its items refer to exactly the paths that were recorded. -/
theorem tightImports_ofItems {package : String} {paths : List String} {items : List Item}
    (h : ∀ p, p ∈ items.flatMap Item.packages ↔ p ∈ paths) :
    (ofItems package paths items).TightImports where
  mem_iff p := by rw [mem_imports_ofItems, ← h]; rfl
  distinct := nodup_imports_ofItems

end SourceFile

end Tablewright.Code
