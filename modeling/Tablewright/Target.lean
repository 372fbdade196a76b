import Tablewright.Code.Basic
import Tablewright.Schema.EntityType

/-! Where the generated code lives and which libraries it uses, and how values of a column's type
appear in it. -/

namespace Tablewright

open Code

structure Target where
  /-- The path of the generated module. -/
  module : String
  /-- The import path of the caching runtime. -/
  rapidashPath : String
  /-- The import path of the library that traces errors. -/
  errorsPath : String
deriving Repr, DecidableEq

namespace Target

def defaultRapidashPath : String := "go.knocknote.io/rapidash"

def defaultErrorsPath : String := "github.com/juju/errors"

def ofModule (module : String) : Target := ⟨module, defaultRapidashPath, defaultErrorsPath⟩

/-- The text without slashes at its end. -/
def trimSlashes (s : String) : String := .ofList (s.toList.reverse.dropWhile (· == '/')).reverse

/-- The import path of a package of the module. -/
def packagePath (t : Target) (package : String) : String :=
  if t.module = "" then package else trimSlashes t.module ++ "/" ++ package

/-- A type of the caching runtime. -/
def rapidashType (t : Target) (name : String) : TypeRef := .qualified t.rapidashPath name

/-- An error with its trace. -/
def trace (t : Target) (e : Expr) : Expr := .call (.qualified t.errorsPath "Trace") [e]

def traceErr (t : Target) : Expr := t.trace (.ident "err")

end Target

def entityPackage : String := "entity"

def daoPackage : String := "dao"

def modelPackage : String := "model"

def timePath : String := "time"

def sortPath : String := "sort"

namespace EntityType

/-- The type of a field that holds such a value. -/
def valueType : EntityType → TypeRef
  | .timestamp => .pointer (.qualified timePath "Time")
  | .bytes => .slice (.named "byte")
  | .strings => .slice (.named "string")
  | t => .named t.name

/-- The value of a field that was never set. -/
def zeroValue : EntityType → Expr
  | .string => .str ""
  | .bool => .ident "false"
  | .timestamp | .bytes | .strings => .nil
  | _ => .int 0

end EntityType

namespace Code

/-- The test that the variable `err` holds an error. -/
def failed : Expr := .ne (.ident "err") .nil

/-- Returns the values and the traced error if `err` holds one. -/
def checkErr (t : Target) (values : List Expr) : Stmt :=
  .when none failed [.ret (values ++ [t.traceErr])]

/-- Makes a call that gives an error, and returns the values and the traced error if it failed. -/
def tryCall (t : Target) (call : Expr) (values : List Expr) : Stmt :=
  .when (some (.define ["err"] call)) failed [.ret (values ++ [t.traceErr])]

end Code

end Tablewright
