import Tablewright.Dao.Source
import Tablewright.Model.Basic

/-! The source file of a model: the lookups it forwards to the data access, the wrapper of one
entity, and the collection in memory with its helpers. -/

namespace Tablewright

open Code

namespace Model

section Source

variable (m : Model) (t : Target)

def entityType : TypeRef := .qualified (t.packagePath entityPackage) m.name

def daoType : TypeRef := .qualified (t.packagePath daoPackage) m.name

def instanceType : TypeRef := .pointer (.named m.instanceName)

def collectionType : TypeRef := .pointer (.named m.collectionInstanceName)

def newCollection : Expr := .call (.ident ("New" ++ m.collectionInstanceName)) []

def modelReceiver : Param := ⟨"m", .pointer (.named m.implName)⟩

/-- The entities of the collection that is the receiver. -/
def values : Expr := .field (.ident "i") "values"

def valueCount : Expr := .call (.ident "len") [values]

def eachValue (body : List Stmt) : Stmt := .range none "v" values body

/-- Adds the current value to the collection that is built. -/
def addValue : Stmt := .expr (.method (.ident "s") "Add" [.ident "v"])

/-- A new collection with the values that a statement adds to it. -/
def collect (body : List Stmt) : List Stmt := [.define ["s"] m.newCollection, eachValue body]

/-! ### The model -/

def constructorItem : Item :=
  .free ⟨"New" ++ m.name, [⟨m.daoField, m.daoType t⟩], [.pointer (.named m.implName)]⟩
    [.ret [.addr (.composite (.named m.implName) [(m.daoField, .ident m.daoField)])]]

def createInstanceItem : Item :=
  .method m.modelReceiver ⟨"createInstance", [⟨"e", .pointer (m.entityType t)⟩], [m.instanceType]⟩
    [.ret [.addr (.composite (.named m.instanceName)
      ([(m.name, .ident "e")] ++
        (if m.isReadOnly then [] else [(m.daoField, .field (.ident "m") m.daoField)])))]]

def createInstancesItem : Item :=
  .method m.modelReceiver
    ⟨"createInstances", [⟨"es", .qualified (t.packagePath entityPackage) m.collectionName⟩],
      [m.collectionType]⟩
    [.define ["s"] m.newCollection,
      .range none "e" (.ident "es")
        [.expr (.method (.ident "s") "Add" [.method (.ident "m") "createInstance" [.ident "e"]])],
      .ret [.ident "s"]]

/-- Wraps what the call gives: many entities, or one that may be missing. -/
def wrapBody (call : Expr) (many : Bool) : List Stmt :=
  if many then
    [.define ["es", "err"] call,
      checkErr t [.nil],
      .ret [.method (.ident "m") "createInstances" [.ident "es"], .nil]]
  else
    [.define ["e", "err"] call,
      checkErr t [.nil],
      .when none (.eq (.ident "e") .nil) [.ret [.nil, .nil]],
      .ret [.method (.ident "m") "createInstance" [.ident "e"], .nil]]

/-- A method that calls the lookup of the same name on the data access. -/
def forwardItem (name : String) (args : List FinderArg) (many : Bool) : Item :=
  .method m.modelReceiver
    ⟨name, args.map (·.param), [if many then m.collectionType else m.instanceType, .error]⟩
    (wrapBody t
      (.method (.field (.ident "m") m.daoField) name (args.map fun a => .ident a.name)) many)

def modelItems : List Item :=
  [.struct m.implName [.plain m.daoField (m.daoType t)], m.constructorItem t, m.createInstanceItem t,
    m.createInstancesItem t] ++
    (if m.isReadOnly then [m.forwardItem t "FindsAll" [] true] else []) ++
    m.finders.map fun f => m.forwardItem t f.name f.args f.returnsCollection

/-! ### One entity -/

/-- A method that hands the entity to the data access, if there is one. -/
def instanceMethod (name : String) : Item :=
  let dao : Expr := .field (.ident "i") m.daoField
  .method ⟨"i", m.instanceType⟩ ⟨name, [], [.error]⟩
    [.when none (.eq dao .nil) [.ret [.nil]],
      .ret [t.trace (.method dao name [.field (.ident "i") m.name])]]

def instanceItems : List Item :=
  [.struct m.instanceName
    ([.embedded (.pointer (m.entityType t))] ++
      (if m.isReadOnly then [] else [.plain m.daoField (m.daoType t)]))] ++
    (if m.isReadOnly then [] else [m.instanceMethod t "Save", m.instanceMethod t "Delete"])

/-! ### A collection in memory -/

def collectionMethod (name : String) (params : List Param) (results : List TypeRef)
    (body : List Stmt) : Item :=
  .method ⟨"i", m.collectionType⟩ ⟨name, params, results⟩ body

def fixedMethods : List Item := [
  m.collectionMethod "Add" [⟨"v", m.instanceType⟩] []
    [.assign values (.call (.ident "append") [values, .ident "v"])],
  m.collectionMethod ("FindBy" ++ m.primaryKey.field)
    [⟨"id", m.primaryKey.entityType.valueType⟩] [m.instanceType]
    [eachValue
      [.when none (.eq (.field (.ident "v") m.primaryKey.field) (.ident "id")) [.ret [.ident "v"]]],
      .ret [.nil]],
  m.collectionMethod "FilterBy" [⟨"f", .func [m.instanceType] [.named "bool"]⟩] [m.collectionType]
    (m.collect [.when none (.call (.ident "f") [.ident "v"]) [addValue]] ++ [.ret [.ident "s"]]),
  m.collectionMethod "Each" [⟨"f", .func [m.instanceType] []⟩] []
    [eachValue [.expr (.call (.ident "f") [.ident "v"])]],
  m.collectionMethod "EachWithError" [⟨"f", .func [m.instanceType] [.error]⟩] [.error]
    [eachValue [tryCall t (.call (.ident "f") [.ident "v"]) []], .ret [.nil]],
  m.collectionMethod "First" [] [m.instanceType]
    [.when none (.eq valueCount (.int 0)) [.ret [.nil]], .ret [.index values (.int 0)]],
  m.collectionMethod "At" [⟨"idx", .named "int"⟩] [m.instanceType]
    [.when none
      (.or (.binary (.ident "idx") .lt (.int 0)) (.binary (.ident "idx") .ge valueCount))
      [.ret [.nil]],
      .ret [.index values (.ident "idx")]],
  m.collectionMethod "Len" [] [.named "int"] [.ret [valueCount]],
  m.collectionMethod "IsEmpty" [] [.named "bool"]
    [.ret [.eq (.method (.ident "i") "Len" []) (.int 0)]]]

/-- The test that the current value has `c` in a column. Points in time are compared through their
pointers. -/
def matchesValue (c : ModelColumn) : Expr :=
  let value : Expr := .field (.ident "v") c.field
  if c.entityType = .timestamp then
    .and (.and (.ne value .nil) (.ne (.ident "c") .nil))
      (.method value "Equal" [.deref (.ident "c")])
  else .eq value (.ident "c")

def filterItem (c : ModelColumn) : Item :=
  m.collectionMethod c.filterName [⟨"c", c.entityType.valueType⟩] [m.collectionType]
    (m.collect [.when none (matchesValue c) [addValue]] ++ [.ret [.ident "s"]])

/-- The column of the value at a position of the sorted collection. -/
def sortedValue (c : ModelColumn) (position : String) : Expr :=
  .field (.index (.field (.ident "s") "values") (.ident position)) c.field

/-- The tests that the first of two values comes before the second, descending and ascending. -/
def comesBefore (c : ModelColumn) : SortOrder → Expr × Expr
  | .natural =>
    (.binary (sortedValue c "i") .gt (sortedValue c "j"),
      .binary (sortedValue c "i") .lt (sortedValue c "j"))
  | .chronological =>
    (.method (sortedValue c "i") "After" [.deref (sortedValue c "j")],
      .method (sortedValue c "i") "Before" [.deref (sortedValue c "j")])
  | .boolean =>
    (.and (sortedValue c "i") (.not (sortedValue c "j")),
      .and (.not (sortedValue c "i")) (sortedValue c "j"))

def sortItem (c : ModelColumn) (order : SortOrder) : Item :=
  let (descending, ascending) := comesBefore c order
  m.collectionMethod c.sortName [⟨"isDesc", .named "bool"⟩] [m.collectionType]
    (m.collect [addValue] ++
      [.expr (.call (.qualified sortPath "SliceStable")
        [.field (.ident "s") "values",
          .func [⟨"i", .named "int"⟩, ⟨"j", .named "int"⟩] [.named "bool"]
            [.when none (.ident "isDesc") [.ret [descending]], .ret [ascending]]]),
      .ret [.ident "s"]])

def pluckItem (c : ModelColumn) : Item :=
  m.collectionMethod c.pluralField [] [.slice c.entityType.valueType]
    [.define ["s"] (.slice c.entityType.valueType []),
      .expr (.method (.ident "i") "Each"
        [.func [⟨"v", m.instanceType⟩] []
          [.assign (.ident "s")
            (.call (.ident "append") [.ident "s", .field (.ident "v") c.field])]]),
      .ret [.ident "s"]]

/-- The helpers of one column. -/
def columnItems (c : ModelColumn) : List Item :=
  (if c.filterable then [m.filterItem c] else []) ++ c.sort.toList.map (m.sortItem c) ++
    [m.pluckItem c]

/-- Saves every value. -/
def saveAllItem : Item :=
  m.collectionMethod "Save" [] [.error]
    [.ret [.method (.ident "i") "EachWithError"
      [.func [⟨"v", m.instanceType⟩] [.error] [.ret [t.trace (.method (.ident "v") "Save" [])]]]]]

def collectionItems : List Item :=
  [.struct m.collectionInstanceName [.plain "values" (.slice m.instanceType)],
    .free ⟨"New" ++ m.collectionInstanceName, [], [m.collectionType]⟩
      [.ret [.addr (.composite (.named m.collectionInstanceName)
        [("values", .slice m.instanceType [])])]]] ++
    m.fixedMethods t ++ m.columns.flatMap m.columnItems ++
    (if m.isReadOnly then [] else [m.saveAllItem t])

def imports : List String :=
  [t.packagePath entityPackage, t.packagePath daoPackage] ++
    (if m.columns.any (·.sort.isSome) then [sortPath] else []) ++
    (if m.columns.any (·.entityType == .timestamp) then [timePath] else []) ++ [t.errorsPath]

def items : List Item := m.modelItems t ++ m.instanceItems t ++ m.collectionItems t

def source : SourceFile := .ofItems modelPackage (m.imports t) (m.items t)

end Source

end Model

end Tablewright
