/-! Typed code: the files, declarations, statements and expressions that are generated. Nothing here
knows about layout. A reference to another package carries the import path of that package. -/

namespace Tablewright.Code

inductive TypeRef
  /-- A built-in type or a type of the same package. -/
  | named (name : String)
  /-- A type of the package with the given import path. -/
  | qualified (package name : String)
  | pointer (target : TypeRef)
  | slice (element : TypeRef)
  | map (key value : TypeRef)
  | func (params results : List TypeRef)
  /-- The interface without methods. -/
  | any
deriving Repr

/-- The built-in type of errors. -/
def TypeRef.error : TypeRef := .named "error"

structure Param where
  name : String
  type : TypeRef
deriving Repr

structure Signature where
  name : String
  params : List Param
  results : List TypeRef
deriving Repr

inductive BinaryOp
  | eq
  | ne
  | lt
  | gt
  | ge
  | and
  | or
deriving Repr, DecidableEq

inductive UnaryOp
  /-- Address of. -/
  | addr
  /-- What a pointer points to. -/
  | deref
  | not
deriving Repr, DecidableEq

mutual

inductive Expr
  | ident (name : String)
  /-- A name that the package with the given import path exports. -/
  | qualified (package name : String)
  | nil
  /-- A string, as it is and not as it is written. -/
  | str (value : String)
  | int (value : Int)
  /-- A type where an expression is expected. -/
  | type (type : TypeRef)
  /-- A field or a method of a value. -/
  | field (base : Expr) (name : String)
  | call (callee : Expr) (args : List Expr)
  | index (base position : Expr)
  | unary (op : UnaryOp) (operand : Expr)
  | binary (left : Expr) (op : BinaryOp) (right : Expr)
  | paren (inner : Expr)
  /-- A struct with its fields by name. -/
  | composite (type : TypeRef) (fields : List (String × Expr))
  | slice (element : TypeRef) (elements : List Expr)
  | map (key value : TypeRef) (entries : List (Expr × Expr))
  | func (params : List Param) (results : List TypeRef) (body : List Stmt)

inductive Stmt
  | expr (e : Expr)
  /-- New variables for the results of an expression. -/
  | define (names : List String) (value : Expr)
  | assign (target value : Expr)
  /-- A variable that holds the zero of its type. -/
  | declare (name : String) (type : TypeRef)
  | ret (values : List Expr)
  /-- A condition, with a statement that is run before it is tested. -/
  | when (init : Option Stmt) (condition : Expr) (body : List Stmt)
  /-- A loop over a sequence. Without a name the position is discarded. -/
  | range (key : Option String) (value : String) (source : Expr) (body : List Stmt)
  /-- A loop that counts from `first` to just before `bound`. -/
  | count (counter : String) (first bound : Expr) (body : List Stmt)

end

/-- A field of a struct. Without a name, its type is embedded. -/
structure Field where
  name : Option String
  type : TypeRef
  /-- Tags for serialization: keys and values. -/
  tags : List (String × String)
deriving Repr

structure Function where
  receiver : Option Param
  signature : Signature
  body : List Stmt

inductive Item
  | struct (name : String) (fields : List Field)
  /-- A name for a type made from another. -/
  | typeName (name : String) (type : TypeRef)
  | interface (name : String) (methods : List Signature)
  | func (f : Function)

structure SourceFile where
  package : String
  /-- The import paths, in the order in which they were first recorded. -/
  imports : List String
  items : List Item

namespace Expr

/-- A method of a value applied to arguments. -/
def method (e : Expr) (name : String) (args : List Expr) : Expr := .call (.field e name) args

def addr (e : Expr) : Expr := .unary .addr e

def deref (e : Expr) : Expr := .unary .deref e

def not (e : Expr) : Expr := .unary .not e

def eq (a b : Expr) : Expr := .binary a .eq b

def ne (a b : Expr) : Expr := .binary a .ne b

def and (a b : Expr) : Expr := .binary a .and b

def or (a b : Expr) : Expr := .binary a .or b

end Expr

namespace Field

def plain (name : String) (type : TypeRef) : Field := ⟨some name, type, []⟩

def embedded (type : TypeRef) : Field := ⟨none, type, []⟩

end Field

namespace Item

/-- A function without a receiver. -/
def free (signature : Signature) (body : List Stmt) : Item := .func ⟨none, signature, body⟩

def method (receiver : Param) (signature : Signature) (body : List Stmt) : Item :=
  .func ⟨some receiver, signature, body⟩

/-- The function that an item declares. -/
def function? : Item → Option Function
  | .func f => some f
  | _ => none

end Item

namespace SourceFile

/-- Records a path, unless it is recorded already. -/
def addImport (imports : List String) (path : String) : List String :=
  if imports.contains path then imports else imports ++ [path]

/-- A file whose imports were recorded in the given order. -/
def ofItems (package : String) (paths : List String) (items : List Item) : SourceFile :=
  ⟨package, paths.foldl addImport [], items⟩

/-- The names of the functions and methods, in order. -/
def functionNames (file : SourceFile) : List String :=
  file.items.filterMap fun item => item.function?.map (·.signature.name)

end SourceFile

end Tablewright.Code
