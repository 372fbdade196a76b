import Tablewright.Proofs.Dao.Comparisons
import Tablewright.Proofs.Entity.NilSafety

/-! The file of a data access goes through no timestamps: they are stored and handed over. -/

namespace Tablewright

open Code

namespace Dao

variable {d : Dao} {e : Entity} {t : Target} {fn : Function} {w : Visible}

/-! ## What the file declares -/

theorem struct_mem_items {name : String} {fields : List Field}
    (h : .struct name fields ∈ d.items t) : fields = d.implFields t := by
  rcases d.mem_items_cases t h with hfixed | ⟨_, hall⟩ | ⟨_, hwrite⟩ | ⟨_, _, hlookup⟩
  · simp only [List.mem_cons, List.not_mem_nil, or_false] at hfixed
    rcases hfixed with h | h | h
    · cases h
    · cases h
      rfl
    · cases h
  · cases hall
  · simp only [List.mem_cons, List.not_mem_nil, or_false] at hwrite
    rcases hwrite with h | h <;> cases h
  · cases hlookup

theorem typeName_notMem_items {name : String} {type : TypeRef} :
    .typeName name type ∉ d.items t := by
  intro h
  rcases d.mem_items_cases t h with hfixed | ⟨_, hall⟩ | ⟨_, hwrite⟩ | ⟨_, _, hlookup⟩
  · simp only [List.mem_cons, List.not_mem_nil, or_false] at hfixed
    rcases hfixed with h | h | h <;> cases h
  · cases hall
  · simp only [List.mem_cons, List.not_mem_nil, or_false] at hwrite
    rcases hwrite with h | h <;> cases h
  · cases hlookup

theorem timestampType_notMem_results (h : .func fn ∈ d.items t) :
    timestampType ∉ fn.signature.results := by
  rcases d.mem_items_cases t h with hfixed | ⟨_, hall⟩ | ⟨_, hwrite⟩ | ⟨f, _, hlookup⟩
  · simp only [List.mem_cons, List.not_mem_nil, or_false] at hfixed
    rcases hfixed with h | h | h
    · cases h
    · cases h
    · cases h
      simp [timestampType]
  · cases hall
    simp [findsAllSignature, collectionType, timestampType, TypeRef.error]
  · simp only [List.mem_cons, List.not_mem_nil, or_false] at hwrite
    rcases hwrite with h | h <;> cases h <;> simp [entitySignature, timestampType, TypeRef.error]
  · cases hlookup
    have hresult : d.resultType t f ≠ timestampType := by
      unfold resultType
      split
      · exact qualified_ne _ _
      · exact pointer_entity_ne t d.name
    simpa [finderSignature, TypeRef.error, timestampType] using hresult.symm

theorem holdsNoTime_implFields : ∀ f ∈ d.implFields t, f.type.HoldsNoTime := by
  have htx : timestampType ∉ transactionResults t := by
    simp [transactionResults, Target.rapidashType, timestampType, TypeRef.error]
  have hquery : timestampType ∉ [queryBuilder t] := by
    simp [queryBuilder, Target.rapidashType, timestampType]
  have huser : timestampType ∉ [TypeRef.named "uint64"] := by simp [timestampType]
  intro f hf
  rcases List.mem_append.mp hf with hf | hf
  · simp only [List.mem_cons, List.not_mem_nil, or_false] at hf
    rcases hf with rfl | rfl | rfl
    · exact holdsNoTime_valueType .string
    · exact holdsNoTime_func htx
    · exact holdsNoTime_func hquery
  · split at hf
    · simp only [List.mem_cons, List.not_mem_nil, or_false] at hf
      rcases hf with rfl | rfl
      · exact holdsNoTime_func huser
      · exact holdsNoTime_func hquery
    · cases hf

theorem withholds_timestampType : (d.visible e t).Withholds timestampType := by
  refine e.withholds_timestampType t (fun _ _ => typeName_notMem_items)
    (fun _ => timestampType_notMem_results) fun _ _ hstruct => ?_
  obtain rfl := struct_mem_items hstruct
  exact holdsNoTime_implFields

/-! ## What the methods go through -/

/-- The variables that the methods go through are no timestamps. -/
structure Timeless (w : Visible) (scope : Scope) : Prop where
  receiver : w.NeverGives timestampType scope (.ident "d")
  entity : w.NeverGives timestampType scope (.ident "e")
  transaction : w.NeverGives timestampType scope (.ident "tx")

theorem Timeless.behind {scope : Scope} (h : Timeless w scope) {block : List (String × Binding)}
    (hd : block.lookup "d" = none) (he : block.lookup "e" = none)
    (htx : block.lookup "tx" = none) : Timeless w (block :: scope) :=
  ⟨h.receiver.behind hd, h.entity.behind he, h.transaction.behind htx⟩

section Fragments

variable {scope : Scope} {known : List Expr}

@[simp] theorem tested_isUnsaved : d.isUnsaved.tested = [] := rfl

@[simp] theorem uses_isUnsaved :
    d.isUnsaved.uses scope known = [⟨scope, known, .ident "e", some d.primaryKey.name⟩] := by
  simp [isUnsaved, keyField]

@[simp] theorem after_stamp (column : String) : scope.after (stamp column) = scope := rfl

@[simp] theorem uses_stamp (column : String) :
    (stamp column).uses scope known = [⟨scope, known, .ident "e", some (Names.field column)⟩] := by
  simp [stamp]

@[simp] theorem uses_keyQuery :
    d.keyQuery.uses scope known = [⟨scope, known, .method (.ident "d") "qb" [], some "Eq"⟩,
      ⟨scope, known, .ident "d", some "qb"⟩,
      ⟨scope, known, .ident "e", some d.primaryKey.name⟩] := by
  simp [keyQuery, keyField]

/-- A stamp, if there is one. -/
theorem foldl_after_stamp (stamps : Bool) (column : String) :
    (if stamps then [stamp column] else []).foldl Scope.after scope = scope := by
  cases stamps <;> rfl

theorem Timeless.stamp (h : Timeless w scope) (stamps : Bool) (column : String) :
    w.AvoidsTimestamps (Stmt.usesOf scope [] (if stamps then [Dao.stamp column] else [])) := by
  cases stamps <;> simp [h.entity]

/-- The present time, if it is taken. -/
theorem Timeless.define_now (h : Timeless w scope) (taken : Prop) [Decidable taken] :
    Timeless w ((if taken then [.define ["now"] (.call (.qualified timePath "Now") [])] else []
      : List Stmt).foldl Scope.after scope) := by
  split
  · exact h.behind rfl rfl rfl
  · exact h

theorem avoidsTimestamps_now (scope : Scope) (taken : Prop) [Decidable taken] :
    w.AvoidsTimestamps (Stmt.usesOf scope []
      (if taken then [.define ["now"] (.call (.qualified timePath "Now") [])] else [])) := by
  split <;> simp

theorem Timeless.insertBody (h : Timeless w scope) :
    w.AvoidsTimestamps (Stmt.usesOf scope [] (d.insertBody t)) := by
  have hkey : ∀ value, w.NeverGives timestampType
      ([("id", .result value 0), ("err", .result value 1)] :: scope) (.ident "e") :=
    fun _ => h.entity.behind rfl
  unfold Dao.insertBody
  cases d.setsUserId <;> cases d.setsCreatedAt <;> cases d.primaryKey.entityType.isInteger <;>
    simp [keyField, h.receiver, h.entity, h.transaction, hkey]

theorem Timeless.updateBody (h : Timeless w scope) (hw : w.Withholds timestampType) :
    w.AvoidsTimestamps (Stmt.usesOf scope [] (d.updateBody t)) := by
  have hvalues : ∀ query, w.NeverGives timestampType ([("b", .result query 0)] :: scope)
      (.ident "e") := fun _ => h.entity.behind rfl
  have htx : ∀ values query, w.NeverGives timestampType
      ([("m", .result values 0)] :: [("b", .result query 0)] :: scope) (.ident "tx") :=
    fun _ _ => (h.transaction.behind rfl).behind rfl
  simp [Dao.updateBody, keyQuery, keyField, updateMap, List.flatMap_map, h.receiver, h.entity,
    hw.method, hvalues, htx]

/-- The query of a lookup starts from one of the receiver. -/
theorem avoidsTimestamps_finderQuery (hd : w.NeverGives timestampType scope (.ident "d"))
    (hw : w.Withholds timestampType) (f : Finder) :
    w.AvoidsTimestamps ((finderQuery f).uses scope known) := by
  have hconditions : ∀ (args : List FinderArg) (query : Expr),
      w.NeverGives timestampType scope query → w.AvoidsTimestamps (query.uses scope known) →
        w.AvoidsTimestamps ((args.foldl (addCondition f.lookup) query).uses scope known) := by
    intro args
    induction args with
    | nil => exact fun _ _ huses => huses
    | cons a args ih =>
      intro query hquery huses
      exact ih _ hw.method (by simp [addCondition, hquery, huses])
  exact hconditions f.args _ hw.method (by simp [hd])

end Fragments

/-! ## The methods -/

/-- The transaction is given by the receiver. -/
theorem neverGives_transaction (hw : w.Withholds timestampType) (scope : Scope) :
    w.NeverGives timestampType
      ([("tx", .result (.method (.ident "d") "txGetter" []) 0),
        ("err", .result (.method (.ident "d") "txGetter" []) 1)] :: scope) (.ident "tx") :=
  Visible.neverGives_result rfl hw.method

/-- Behind the transaction of a method that takes an entity. -/
theorem timeless_entityMethod (hw : w.Withholds timestampType) :
    Timeless w [[("tx", .result (.method (.ident "d") "txGetter" []) 0),
        ("err", .result (.method (.ident "d") "txGetter" []) 1)],
      [("d", .typed (.pointer (.named d.implName))),
        ("e", .typed (.pointer (d.entityType t)))]] :=
  ⟨Visible.neverGives_pointer rfl, Visible.neverGives_typed rfl (pointer_entity_ne t d.name),
    neverGives_transaction hw _⟩

theorem avoidsTimestamps_constructorItem (h : .func fn = d.constructorItem t) :
    w.AvoidsTimestamps fn.uses := by
  cases h
  cases huser : d.hasUserIdGetter <;>
    simp [Function.uses, Function.scope, implValues, thunk, newQuery, newOwnerQuery, huser]
  exact Visible.neverGives_call_qualified (qualified_ne _ _)

theorem avoidsTimestamps_findsAllItem (h : .func fn = d.findsAllItem t)
    (hw : w.Withholds timestampType) : w.AvoidsTimestamps fn.uses := by
  cases h
  simp [Function.uses, Function.scope, takeTransaction, receiver, findsAllSignature]
  exact ⟨Visible.neverGives_pointer rfl, (neverGives_transaction hw _).behind rfl,
    Visible.neverGives_pointer rfl,
    Visible.neverGives_result rfl (Visible.neverGives_addr_composite (pointer_entity_ne t _))⟩

theorem avoidsTimestamps_deleteItem (h : .func fn = d.deleteItem t)
    (hw : w.Withholds timestampType) : w.AvoidsTimestamps fn.uses := by
  cases h
  have hscope := timeless_entityMethod (d := d) (t := t) hw
  simp [Function.uses, Function.scope, takeTransaction, receiver, entitySignature,
    hscope.receiver, hscope.entity, hw.method]
  exact ⟨Visible.neverGives_pointer rfl, hscope.transaction.behind rfl⟩

theorem avoidsTimestamps_saveItem (h : .func fn = d.saveItem t)
    (hw : w.Withholds timestampType) : w.AvoidsTimestamps fn.uses := by
  cases h
  have hscope := timeless_entityMethod (d := d) (t := t) hw
  simp [Function.uses, Function.scope, takeTransaction, receiver, entitySignature,
    foldl_after_stamp]
  -- The present time is one more variable, if it is taken.
  have hnow := hscope.define_now (d.setsCreatedAt = true ∨ d.setsUpdatedAt = true)
  exact ⟨Visible.neverGives_pointer rfl, avoidsTimestamps_now _ _, hnow.stamp _ _, hnow.entity,
    hnow.insertBody, hnow.updateBody hw⟩

theorem avoidsTimestamps_finderItem {f : Finder} (h : .func fn = d.finderItem t f)
    (hw : w.Withholds timestampType) : w.AvoidsTimestamps fn.uses := by
  cases h
  have hd : ∀ params, w.NeverGives timestampType
      [("d", .typed (.pointer (.named d.implName))) :: params] (.ident "d") :=
    fun _ => Visible.neverGives_pointer rfl
  have he : ∀ scope name, w.NeverGives timestampType
      ([("e", .result (.addr (.composite (.qualified (t.packagePath entityPackage) name) [])) 0)] ::
        scope) (.ident "e") := fun _ name =>
    Visible.neverGives_result rfl (Visible.neverGives_addr_composite (pointer_entity_ne t name))
  simp [Function.uses, Function.scope, takeTransaction, receiver, finderSignature]
  refine ⟨hd _, avoidsTimestamps_finderQuery ((hd _).behind rfl) hw f,
    ((neverGives_transaction hw _).behind rfl).behind rfl, ?_⟩
  split
  · simp
    exact he _ _
  · simp
    exact he _ _

theorem avoidsTimestamps_of_mem_items (h : .func fn ∈ d.items t) :
    (d.visible e t).AvoidsTimestamps fn.uses := by
  have hw := withholds_timestampType (d := d) (e := e) (t := t)
  rcases d.mem_items_cases t h with hfixed | ⟨_, hall⟩ | ⟨_, hwrite⟩ | ⟨f, _, hlookup⟩
  · simp only [List.mem_cons, List.not_mem_nil, or_false] at hfixed
    rcases hfixed with h | h | h
    · cases h
    · cases h
    · exact avoidsTimestamps_constructorItem h
  · exact avoidsTimestamps_findsAllItem hall hw
  · simp only [List.mem_cons, List.not_mem_nil, or_false] at hwrite
    rcases hwrite with hsave | hdelete
    · exact avoidsTimestamps_saveItem hsave hw
    · exact avoidsTimestamps_deleteItem hdelete hw
  · exact avoidsTimestamps_finderItem hlookup hw

end Dao

end Tablewright
