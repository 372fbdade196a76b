import Tablewright.Proofs.Code.Calls
import Tablewright.Proofs.Dao.Methods

/-! The data access of a table that is just read. Its functions get transactions, build queries and
read rows, and make no other call of a method. -/

namespace Tablewright

open Code

namespace Dao

/-- The methods of a data access that change rows. -/
def changers : List String := ["Save", "Delete"]

/-- The methods of a transaction that change rows. -/
def changingCalls : List String := ["CreateByTable", "UpdateByQueryBuilder", "DeleteByQueryBuilder"]

/-- The methods of a transaction that read rows. -/
def readingCalls : List String := ["FindAllByTable", "FindByQueryBuilder"]

/-- A data access has no way to change rows. -/
structure OnlyReads (d : Dao) (t : Target) : Prop where
  interface : ∀ name methods, .interface name methods ∈ (d.source t).items →
    ∀ s ∈ methods, s.name ∉ changers
  functions : ∀ fn ∈ (d.source t).functions, fn.signature.name ∉ changers
  calls : ∀ fn ∈ (d.source t).functions, ∀ call ∈ fn.calls, call.method ∉ changingCalls
  transactions : ∀ fn ∈ (d.source t).functions, ∀ call ∈ fn.calls,
    fn.Transaction call.receiver → call.method ∈ readingCalls

/-! ## Calls that read -/

/-- An expression that builds a query and calls no method for the values of its conditions. -/
inductive IsQuery : Expr → Prop
  | builder {name : String} : name ∈ ["qb", "uqb"] → IsQuery (.method (.ident "d") name [])
  | fresh (package table : String) :
    IsQuery (.call (.qualified package "NewQueryBuilder") [.str table])
  | condition {query value : Expr} {method : String} (column : String) :
    IsQuery query → method ∈ ["Eq", "In"] → value.calls = [] →
      IsQuery (.method query method [.str column, value])

/-- The method calls of a data access that is just read. -/
inductive Reading : Call → Prop
  | member {name : String} : name ∈ ["txGetter", "qb", "uqb"] → Reading ⟨.ident "d", name, []⟩
  | condition {query : Expr} {method : String} (args : List Expr) :
    IsQuery query → method ∈ ["Eq", "In"] → Reading ⟨query, method, args⟩
  | transaction {method : String} (args : List Expr) :
    method ∈ readingCalls → Reading ⟨.ident "tx", method, args⟩

variable {d : Dao} {tb : Table} {t : Target} {fn : Function} {call : Call}

theorem Reading.notMem_changingCalls (h : Reading call) : call.method ∉ changingCalls := by
  have hothers : ∀ method ∈ ["txGetter", "qb", "uqb"] ++ ["Eq", "In"] ++ readingCalls,
      method ∉ changingCalls := by decide
  refine hothers _ ?_
  rw [List.mem_append, List.mem_append]
  cases h with
  | member hname => exact .inl (.inl hname)
  | condition _ _ hmethod => exact .inl (.inr hmethod)
  | transaction _ hmethod => exact .inr hmethod

theorem reading_of_isQuery {query : Expr} (h : IsQuery query) :
    ∀ call ∈ query.calls, Reading call := by
  induction h with
  | builder hname =>
    rw [Expr.calls_method, List.forall_mem_cons]
    exact ⟨.member (List.mem_cons_of_mem _ hname), by simp⟩
  | fresh package table => simp
  | condition column hquery hmethod hvalue ih =>
    rw [Expr.calls_method, List.forall_mem_cons]
    refine ⟨.condition _ hquery hmethod, ?_⟩
    simpa [hvalue] using ih

theorem conditionMethod_mem (lookup : Lookup) : conditionMethod lookup ∈ ["Eq", "In"] := by
  cases lookup <;> decide

theorem isQuery_foldl_addCondition (lookup : Lookup) (args : List FinderArg) {query : Expr}
    (h : IsQuery query) : IsQuery (args.foldl (addCondition lookup) query) := by
  induction args generalizing query with
  | nil => exact h
  | cons a rest ih => exact ih (.condition a.column h (conditionMethod_mem lookup) rfl)

theorem isQuery_finderQuery (f : Finder) : IsQuery (finderQuery f) := by
  refine isQuery_foldl_addCondition f.lookup f.args (.builder ?_)
  split <;> decide

/-- A query is no transaction. -/
theorem not_isQuery_of_transaction {e : Expr} (h : fn.Transaction e) : ¬ IsQuery e := by
  intro hquery
  cases h with
  | taken =>
    cases hquery with
    | builder hname => exact absurd hname (by decide)
  | given => cases hquery
  | held => cases hquery

/-! ## Functions that read -/

/-- A function makes no other calls than those that read, and keeps its receiver. -/
structure IsReader (fn : Function) : Prop where
  calls : ∀ call ∈ fn.calls, Reading call
  receiver : ∀ others value, .define ("d" :: others) value ∉ fn.body

theorem IsReader.method_mem (h : IsReader fn) (hcall : call ∈ fn.calls)
    (htx : fn.Transaction call.receiver) : call.method ∈ readingCalls := by
  cases h.calls call hcall with
  | member =>
    cases htx with
    | held hdefine => exact absurd hdefine (h.receiver _ _)
  | condition _ hquery => exact absurd hquery (not_isQuery_of_transaction htx)
  | transaction _ hmethod => exact hmethod

theorem isReader_findsAll (h : .func fn = d.findsAllItem t) : IsReader fn := by
  cases h
  refine ⟨?_, ?_⟩
  · have hcalls : ∀ call ∈ [Call.mk (.ident "d") "txGetter" [],
        ⟨.ident "tx", "FindAllByTable", [.field (.ident "d") "tableName", .ident "e"]⟩],
        Reading call := by
      simp only [List.forall_mem_cons]
      exact ⟨.member (by decide), .transaction _ (by decide), by simp⟩
    simpa [Function.calls, takeTransaction, Expr.addr, Expr.deref, -List.mem_flatMap] using hcalls
  · simp [takeTransaction, checkErr, tryCall]

theorem isReader_finder {f : Finder} (h : .func fn = d.finderItem t f) : IsReader fn := by
  cases h
  refine ⟨?_, ?_⟩
  · have hcalls : ∀ call ∈ Call.mk (.ident "d") "txGetter" [] :: ((finderQuery f).calls ++
        [⟨.ident "tx", "FindByQueryBuilder", [.ident "b", .ident "e"]⟩]), Reading call := by
      rw [List.forall_mem_cons, List.forall_mem_append, List.forall_mem_singleton]
      exact ⟨.member (by decide), reading_of_isQuery (isQuery_finderQuery f),
        .transaction _ (by decide)⟩
    cases hmany : f.returnsCollection <;>
      simpa [hmany, Function.calls, takeTransaction, isUnsaved, keyField, Expr.addr, Expr.deref,
        Expr.eq, -List.mem_flatMap] using hcalls
  · cases f.returnsCollection <;> simp [takeTransaction, checkErr, tryCall]

theorem isReader_constructor (h : .func fn = d.constructorItem t) : IsReader fn := by
  cases h
  refine ⟨?_, by simp⟩
  have howner : IsQuery (d.newOwnerQuery t) :=
    .condition userIdColumn (.fresh t.rapidashPath d.tableName) (by decide) rfl
  have hvalues : ∀ call ∈ (d.implValues t).flatMap (·.2.calls), Reading call := by
    have hquery := reading_of_isQuery howner
    unfold implValues
    cases d.hasUserIdGetter with
    | false => simp [thunk, newQuery]
    | true => simpa [thunk, newQuery] using hquery
  simpa [Function.calls, Expr.addr, -List.mem_flatMap] using hvalues

/-- Without saving and deleting, all functions are readers. -/
theorem isReader_of_mem (hro : d.isReadOnly = true) (h : fn ∈ (d.source t).functions) :
    IsReader fn := by
  have hitem : .func fn ∈ d.items t := SourceFile.mem_functions.mp h
  unfold items at hitem
  rw [if_pos hro] at hitem
  rcases List.mem_append.mp hitem with hitem | hlookup
  · rcases List.mem_append.mp hitem with htype | hall
    · have hnew : .func fn = d.constructorItem t := by simpa [interfaceItem] using htype
      exact isReader_constructor hnew
    · exact isReader_findsAll (List.mem_singleton.mp hall)
  · obtain ⟨f, _, hfn⟩ := List.mem_map.mp hlookup
    exact isReader_finder hfn.symm

/-! ## Names -/

/-- The file declares one interface. -/
theorem signatures_of_mem {name : String} {methods : List Signature}
    (h : .interface name methods ∈ (d.source t).items) : methods = d.signatures t := by
  have hitem : .interface name methods ∈ d.items t := h
  cases hro : d.isReadOnly <;>
    simp [items, hro, interfaceItem, constructorItem, findsAllItem, saveItem, deleteItem,
      finderItem, Item.free, Item.method] at hitem <;>
    simp [signatures, hro, hitem]

theorem methodNames_notMem_changers (h : ofTable tb = .ok d) (hro : d.isReadOnly = true)
    {name : String} (hname : name ∈ d.methodNames) : name ∉ changers := by
  unfold methodNames at hname
  rw [if_pos hro, List.mem_append, List.mem_map] at hname
  rcases hname with hall | ⟨f, hf, rfl⟩
  · obtain rfl := List.mem_singleton.mp hall
    decide
  · intro hmem
    exact Finder.name_notMem_otherMethods (methods_eq_finders h ▸ hf) (List.mem_cons_of_mem _ hmem)

theorem onlyReads (h : ofTable tb = .ok d) (hro : d.isReadOnly = true) : OnlyReads d t := by
  refine ⟨?_, ?_, ?_, ?_⟩
  · intro name methods hitem s hs
    obtain rfl := signatures_of_mem hitem
    refine methodNames_notMem_changers h hro ?_
    rw [← names_signatures t]
    exact List.mem_map_of_mem hs
  · intro fn hfn
    have hname : fn.signature.name ∈ ("New" ++ d.name) :: d.methodNames := by
      rw [← names_functions t]
      exact List.mem_map_of_mem hfn
    rcases List.mem_cons.mp hname with hnew | hmethod
    · have hhead : ∀ changer ∈ changers, changer.toList.head? ≠ some 'N' := by decide
      rw [hnew]
      exact fun hmem => hhead _ hmem (by simp)
    · exact methodNames_notMem_changers h hro hmethod
  · intro fn hfn call hcall
    exact ((isReader_of_mem hro hfn).calls call hcall).notMem_changingCalls
  · intro fn hfn call hcall htx
    exact (isReader_of_mem hro hfn).method_mem hcall htx

end Dao

end Tablewright
