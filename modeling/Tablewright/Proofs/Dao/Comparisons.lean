import Tablewright.Proofs.Dao.Methods
import Tablewright.Proofs.Dao.Scope
import Tablewright.Proofs.Entity.Comparisons

/-! The comparisons in the file of a data access. The methods test whether an entity has its
identifier, against the zero of its type, and everything else that is compared is an error. -/

namespace Tablewright

open Code

namespace Dao

variable (d : Dao) (e : Entity) (t : Target)

/-- What the file of the data access sees. -/
def visible : Visible := ⟨d.items t, t.packagePath entityPackage, e.items t⟩

/-- The test that the entity has no identifier. -/
def keyTest : Expr × Expr := (d.keyField, d.primaryKey.entityType.zeroValue)

@[simp] theorem comparisons_isUnsaved : d.isUnsaved.comparisons = [d.keyTest] := by
  simp [isUnsaved, keyField, keyTest, Expr.eq, Expr.compared?]

@[simp] theorem comparisons_keyQuery : d.keyQuery.comparisons = [] := by
  simp [keyQuery, keyField, Expr.method]

@[simp] theorem comparisons_stamp (column : String) : (stamp column).comparisons = [] := by
  simp [stamp, Expr.addr]

@[simp] theorem comparisons_takeTransaction (values : List Expr) :
    (takeTransaction t values).flatMap Stmt.comparisons =
      (.ident "err", .nil) :: values.flatMap Expr.comparisons := by
  simp [takeTransaction, Expr.method]

@[simp] theorem comparisons_updateMap : d.updateMap.comparisons = [] := by
  simp [updateMap, List.flatMap_map]

@[simp] theorem comparisons_finderQuery (f : Finder) : (finderQuery f).comparisons = [] := by
  have hconditions : ∀ (args : List FinderArg) (query : Expr), query.comparisons = [] →
      (args.foldl (addCondition f.lookup) query).comparisons = [] := by
    intro args
    induction args with
    | nil => exact fun _ h => h
    | cons a args ih => exact fun query h => ih _ (by simp [addCondition, Expr.method, h])
  exact hconditions f.args _ (by simp [Expr.method])

/-- The variable `e` of the function points to an entity. -/
def PointsToEntity (fn : Function) : Prop :=
  ⟨"e", .pointer (d.entityType t)⟩ ∈ fn.signature.params ∨
    .define ["e"] (.addr (.composite (d.entityType t) [])) ∈ fn.body

/-- The function compares errors with `nil`, and the identifier of an entity with the zero of its
type. -/
def TestsKey (fn : Function) : Prop :=
  ∀ operands ∈ fn.comparisons,
    operands = (.ident "err", .nil) ∨ operands = d.keyTest ∧ d.PointsToEntity t fn

@[simp] theorem comparisons_insertBody :
    (d.insertBody t).flatMap Stmt.comparisons = [(.ident "err", .nil)] := by
  unfold insertBody
  cases d.setsUserId <;> cases d.setsCreatedAt <;> cases d.primaryKey.entityType.isInteger <;>
    simp [keyField, Expr.method]

@[simp] theorem comparisons_updateBody :
    (d.updateBody t).flatMap Stmt.comparisons = [(.ident "err", .nil)] := by
  simp [updateBody, Expr.method]

theorem testsKey_saveItem {fn : Function} (h : .func fn = d.saveItem t) : d.TestsKey t fn := by
  cases h
  intro operands hoperands
  have hpoints : operands = (.ident "err", .nil) ∨ operands = d.keyTest := by
    rw [Function.comparisons_eq] at hoperands
    cases hcreated : d.setsCreatedAt <;> cases hupdated : d.setsUpdatedAt <;>
      simp [hcreated, hupdated] at hoperands <;> grind
  exact hpoints.imp_right fun h => ⟨h, .inl List.mem_cons_self⟩

theorem testsKey_deleteItem {fn : Function} (h : .func fn = d.deleteItem t) :
    d.TestsKey t fn := by
  cases h
  intro operands hoperands
  have hpoints : operands = (.ident "err", .nil) ∨ operands = d.keyTest := by
    rw [Function.comparisons_eq] at hoperands
    simp [Expr.method] at hoperands
    grind
  exact hpoints.imp_right fun h => ⟨h, .inl List.mem_cons_self⟩

theorem testsKey_findsAllItem {fn : Function} (h : .func fn = d.findsAllItem t) :
    d.TestsKey t fn := by
  cases h
  intro operands hoperands
  rw [Function.comparisons_eq] at hoperands
  simp [Expr.method, Expr.addr, Expr.deref] at hoperands
  exact .inl hoperands

/-- Only a lookup of one entity tests whether it was found. -/
theorem testsKey_finderItem {f : Finder} {fn : Function} (h : .func fn = d.finderItem t f) :
    d.TestsKey t fn := by
  cases h
  intro operands hoperands
  rw [Function.comparisons_eq] at hoperands
  cases hmany : f.returnsCollection with
  | true =>
    simp [hmany, Expr.method, Expr.addr, Expr.deref] at hoperands
    exact .inl hoperands
  | false =>
    have hpoints : operands = (.ident "err", .nil) ∨ operands = d.keyTest := by
      simp [hmany, Expr.method, Expr.addr] at hoperands
      grind
    exact hpoints.imp_right fun h => ⟨h, .inr (by simp)⟩

theorem testsKey_constructorItem {fn : Function} (h : .func fn = d.constructorItem t) :
    d.TestsKey t fn := by
  cases h
  intro operands hoperands
  rw [Function.comparisons_eq] at hoperands
  unfold implValues at hoperands
  cases hgetter : d.hasUserIdGetter <;>
    simp [hgetter, thunk, newQuery, newOwnerQuery, Expr.method, Expr.addr] at hoperands

theorem testsKey_of_mem_functions {fn : Function} (h : fn ∈ (d.source t).functions) :
    d.TestsKey t fn := by
  rcases d.mem_items_cases t (SourceFile.mem_functions.mp h) with
    hfixed | ⟨_, hall⟩ | ⟨_, hwrite⟩ | ⟨f, _, hfinder⟩
  · simp only [List.mem_cons, List.not_mem_nil, or_false] at hfixed
    rcases hfixed with hinterface | hstruct | hnew
    · cases hinterface
    · cases hstruct
    · exact d.testsKey_constructorItem t hnew
  · exact d.testsKey_findsAllItem t hall
  · simp only [List.mem_cons, List.not_mem_nil, or_false] at hwrite
    rcases hwrite with hsave | hdelete
    · exact d.testsKey_saveItem t hsave
    · exact d.testsKey_deleteItem t hdelete
  · exact d.testsKey_finderItem t hfinder

variable {d} {tb : Table} {key : Column}

/-- Every function compares values that can be compared, whatever the type of the key. -/
theorem compares_of_mem_functions (hof : IsOf tb key d) {fn : Function}
    (h : fn ∈ (d.source t).functions) : (d.visible (.ofTable tb) t).Compares fn := by
  intro operands hoperands
  rcases d.testsKey_of_mem_functions t h operands hoperands with rfl | ⟨rfl, hpoints⟩
  · exact Visible.admits_nil _
  · have hkey : key ∈ tb.columns := List.mem_of_find?_eq_some hof.identifier
    have hvariable : (d.visible (.ofTable tb) t).VariableType fn "e" (.pointer (d.entityType t)) :=
      hpoints.elim .param .made
    rw [entityType, hof.name] at hvariable
    have hfield := Entity.hasField_of_mem_columns t (w := d.visible (.ofTable tb) t) rfl hkey
    rw [keyTest, keyField, hof.primaryKey]
    exact Visible.admits_zeroValue (.field hvariable hfield)

end Dao

end Tablewright
