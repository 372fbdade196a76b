import Tablewright.Dao.Basic
import Tablewright.Target

/-! The source file of a data access: an interface, the type that implements it, a constructor, and
the methods. A lookup starts from a query builder, `uqb` if it covers the owner and `qb` if not, and
adds one condition for every argument. -/

namespace Tablewright

open Code

namespace FinderArg

/-- An argument as a parameter of generated code. -/
def param (a : FinderArg) : Param :=
  ⟨a.name, if a.isSequence then .slice a.entityType.valueType else a.entityType.valueType⟩

end FinderArg

namespace Dao

section Source

variable (d : Dao) (t : Target)

def entityType : TypeRef := .qualified (t.packagePath entityPackage) d.name

def collectionType : TypeRef := .qualified (t.packagePath entityPackage) d.collectionName

def queryBuilder : TypeRef := .pointer (t.rapidashType "QueryBuilder")

def transactionResults : List TypeRef := [.pointer (t.rapidashType "Tx"), .error]

/-- The type of the function that names the current user. -/
def userIdGetterType : TypeRef := .func [] [.named "uint64"]

def receiver : Param := ⟨"d", .pointer (.named d.implName)⟩

def resultType (f : Finder) : TypeRef :=
  if f.returnsCollection then d.collectionType t else .pointer (d.entityType t)

def finderSignature (f : Finder) : Signature :=
  ⟨f.name, f.args.map (·.param), [d.resultType t f, .error]⟩

/-- The signature of a method that takes one entity. -/
def entitySignature (name : String) : Signature :=
  ⟨name, [⟨"e", .pointer (d.entityType t)⟩], [.error]⟩

def findsAllSignature : Signature := ⟨"FindsAll", [], [d.collectionType t, .error]⟩

def interfaceItem : Item :=
  .interface d.name
    ((if d.isReadOnly then [d.findsAllSignature t]
      else [d.entitySignature t "Save", d.entitySignature t "Delete"]) ++
      d.methods.map (d.finderSignature t))

def implFields : List Field :=
  [.plain "tableName" (.named "string"),
    .plain "txGetter" (.func [] (transactionResults t)),
    .plain "qb" (.func [] [queryBuilder t])] ++
    (if d.hasUserIdGetter then
      [.plain "userIDGetter" userIdGetterType, .plain "uqb" (.func [] [queryBuilder t])]
    else [])

/-- A fresh query on the table. -/
def newQuery : Expr := .call (.qualified t.rapidashPath "NewQueryBuilder") [.str d.tableName]

/-- A fresh query on the rows of the current user. -/
def newOwnerQuery : Expr :=
  .method (d.newQuery t) "Eq" [.str userIdColumn, .call (.ident "userIDGetter") []]

/-- A function without parameters that returns one value. -/
def thunk (results : List TypeRef) (value : Expr) : Expr := .func [] results [.ret [value]]

def implValues : List (String × Expr) :=
  [("tableName", .str d.tableName),
    ("txGetter", thunk (transactionResults t) (.call (.ident "txGetter") [.str d.tableName])),
    ("qb", thunk [queryBuilder t] (d.newQuery t))] ++
    (if d.hasUserIdGetter then
      [("userIDGetter", .ident "userIDGetter"), ("uqb", thunk [queryBuilder t] (d.newOwnerQuery t))]
    else [])

def constructorItem : Item :=
  .free
    ⟨"New" ++ d.name,
      [⟨"txGetter", .func [.named "string"] (transactionResults t)⟩] ++
        (if d.hasUserIdGetter then [⟨"userIDGetter", userIdGetterType⟩] else []),
      [.named d.name]⟩
    [.ret [.addr (.composite (.named d.implName) (d.implValues t))]]

/-- Takes a transaction, or returns the values and the error. -/
def takeTransaction (values : List Expr) : List Stmt :=
  [.define ["tx", "err"] (.method (.ident "d") "txGetter" []), checkErr t values]

def keyField : Expr := .field (.ident "e") d.primaryKey.name

/-- The test that the entity has no identifier yet. -/
def isUnsaved : Expr := .eq d.keyField d.primaryKey.entityType.zeroValue

/-- Builds the query for the entity's own row. -/
def keyQuery : Stmt :=
  .define ["b"]
    (.method (.method (.ident "d") "qb" []) "Eq" [.str d.primaryKey.column, d.keyField])

def findsAllItem : Item :=
  .method d.receiver (d.findsAllSignature t)
    (takeTransaction t [.nil] ++ [
      .define ["e"] (.addr (.composite (d.collectionType t) [])),
      tryCall t
        (.method (.ident "tx") "FindAllByTable" [.field (.ident "d") "tableName", .ident "e"])
        [.nil],
      .ret [.deref (.ident "e"), .nil]])

/-- Stores the present time in the field of a column. -/
def stamp (column : String) : Stmt :=
  .assign (.field (.ident "e") (Names.field column)) (.addr (.ident "now"))

/-- Inserts a new row. -/
def insertBody : List Stmt :=
  (if d.setsUserId then
    [.assign (.field (.ident "e") (Names.field userIdColumn))
      (.method (.ident "d") "userIDGetter" [])]
  else []) ++
  (if d.setsCreatedAt then [stamp createdAtColumn] else []) ++
  [.define ["id", "err"]
      (.method (.ident "tx") "CreateByTable" [.field (.ident "d") "tableName", .ident "e"]),
    checkErr t []] ++
  (if d.primaryKey.entityType.isInteger then
    [.assign d.keyField (.call (.ident d.primaryKey.entityType.name) [.ident "id"])]
  else []) ++
  [.ret [.nil]]

/-- The values that an update writes, by column. -/
def updateMap : Expr :=
  .map (.named "string") .any
    (d.updateFields.map fun f => (.str f.column, .field (.ident "e") f.name))

/-- Updates the row that has the entity's identifier. -/
def updateBody : List Stmt :=
  [d.keyQuery,
    .define ["m"] d.updateMap,
    tryCall t (.method (.ident "tx") "UpdateByQueryBuilder" [.ident "b", .ident "m"]) [],
    .ret [.nil]]

def saveItem : Item :=
  .method d.receiver (d.entitySignature t "Save")
    (takeTransaction t [] ++
      (if d.setsCreatedAt || d.setsUpdatedAt then
        [.define ["now"] (.call (.qualified timePath "Now") [])]
      else []) ++
      (if d.setsUpdatedAt then [stamp updatedAtColumn] else []) ++
      [.when none d.isUnsaved (d.insertBody t)] ++
      d.updateBody t)

/-- The error of deleting an entity that was never saved. -/
def deleteWithoutIdMessage : String := "cannot delete without identifier"

def deleteItem : Item :=
  .method d.receiver (d.entitySignature t "Delete")
    (takeTransaction t [] ++ [
      .when none d.isUnsaved
        [.ret [.call (.qualified t.errorsPath "New") [.str deleteWithoutIdMessage]]],
      d.keyQuery,
      tryCall t (.method (.ident "tx") "DeleteByQueryBuilder" [.ident "b"]) [],
      .ret [.nil]])

/-- The method of a query that adds a condition of this kind. -/
def conditionMethod : Lookup → String
  | .eq => "Eq"
  | .among => "In"

/-- The query with one more condition. -/
def addCondition (lookup : Lookup) (query : Expr) (a : FinderArg) : Expr :=
  .method query (conditionMethod lookup) [.str a.column, .ident a.name]

def finderQuery (f : Finder) : Expr :=
  f.args.foldl (addCondition f.lookup)
    (.method (.ident "d") (if f.isUserScoped then "uqb" else "qb") [])

def finderItem (f : Finder) : Item :=
  let result := if f.returnsCollection then d.collectionType t else d.entityType t
  .method d.receiver (d.finderSignature t f)
    (takeTransaction t [.nil] ++ [
      .define ["b"] (finderQuery f),
      .define ["e"] (.addr (.composite result [])),
      tryCall t (.method (.ident "tx") "FindByQueryBuilder" [.ident "b", .ident "e"]) [.nil]] ++
      (if f.returnsCollection then [.ret [.deref (.ident "e"), .nil]]
      else [.when none d.isUnsaved [.ret [.nil, .nil]], .ret [.ident "e", .nil]]))

def imports : List String :=
  [t.packagePath entityPackage] ++
    (if !d.isReadOnly && (d.setsCreatedAt || d.setsUpdatedAt) then [timePath] else []) ++
    [t.errorsPath, t.rapidashPath]

def items : List Item :=
  [d.interfaceItem t, .struct d.implName (d.implFields t), d.constructorItem t] ++
    (if d.isReadOnly then [d.findsAllItem t] else [d.saveItem t, d.deleteItem t]) ++
    d.methods.map (d.finderItem t)

def source : SourceFile := .ofItems daoPackage (d.imports t) (d.items t)

end Source

end Dao

end Tablewright
