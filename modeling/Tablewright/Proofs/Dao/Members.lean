import Tablewright.Entity.Source
import Tablewright.Model.Basic
import Tablewright.Proofs.Code.Parts
import Tablewright.Proofs.Dao.Methods

/-! The members that a data access selects. What its methods select of their receiver, its type
declares and its constructor sets, and what they select of an entity is a field of the entity. -/

namespace Tablewright

open Code

/-- The function selects a member of a variable. -/
def Code.Function.Selects (fn : Function) (x member : String) : Prop :=
  Expr.field (.ident x) member ∈ fn.parts

/-- A variable of the function points to a value of the type, which the function is given or
makes. -/
def Code.Function.Holds (fn : Function) (x : String) (type : TypeRef) : Prop :=
  ⟨x, .pointer type⟩ ∈ fn.signature.params ∨ .define [x] (.addr (.composite type [])) ∈ fn.body

namespace Dao

/-- What the file of a data access selects is declared. The type that implements the interface has
the given fields. -/
structure SelectsDeclared (d : Dao) (e : Entity) (t : Target) (fields : List Field) : Prop where
  declared : (d.source t).fields? d.implName = some fields
  receiver : ∀ fn ∈ (d.source t).functions, ∀ r, fn.receiver = some r →
    r.type = .pointer (.named d.implName) ∧
      ∀ member, fn.Selects r.name member → some member ∈ fields.map (·.name)
  /-- The members for the current user are there if he is known. -/
  currentUser : ∀ member ∈ ["userIDGetter", "uqb"],
    some member ∈ fields.map (·.name) ↔ d.hasUserIdGetter = true
  /-- The one function without a receiver makes a value with all the fields in their order. -/
  constructor : ∃ signature values,
    (∀ fn, fn ∈ (d.source t).functions ∧ fn.receiver = none ↔
      fn = ⟨none, signature, [.ret [.addr (.composite (.named d.implName) values)]]⟩) ∧
    values.map (some ·.1) = fields.map (·.name)
  entity : ∀ fn ∈ (d.source t).functions, ∀ member, fn.Selects "e" member →
    fn.Holds "e" (.qualified (t.packagePath entityPackage) e.name) ∧
      member ∈ e.fields.map (·.name)

/-- Entity, data access and model have the same fields, and the same one is the primary key. -/
structure FieldsAgree (e : Entity) (d : Dao) (m : Model) : Prop where
  columns : m.columns.map (·.field) = e.fields.map (·.name)
  primaryKey : ∃ f, e.primaryKey? = some f ∧ d.primaryKey = ⟨f.name, f.column, f.entityType⟩ ∧
    m.primaryKey.field = f.name ∧ m.primaryKey.column = f.column ∧
    m.primaryKey.entityType = f.entityType

variable {d : Dao} {tb : Table} {key : Column} {t : Target} {x member : String}

/-! ## What the methods select -/

/-- The selections of members of variables in the methods, and when they are made. -/
inductive Selects (d : Dao) : String → String → Prop
  | tableName : Selects d "d" "tableName"
  | txGetter : Selects d "d" "txGetter"
  | builder : Selects d "d" "qb"
  | ownerBuilder {f : Finder} : f ∈ d.methods → f.isUserScoped = true → Selects d "d" "uqb"
  | userIdGetter : d.setsUserId = true → Selects d "d" "userIDGetter"
  | transaction (method : String) : Selects d "tx" method
  | key : Selects d "e" d.primaryKey.name
  | createdAt : d.setsCreatedAt = true → Selects d "e" (Names.field createdAtColumn)
  | updatedAt : d.setsUpdatedAt = true → Selects d "e" (Names.field updatedAtColumn)
  | userId : d.setsUserId = true → Selects d "e" (Names.field userIdColumn)
  | updated {f : DaoField} : f ∈ d.updateFields → Selects d "e" f.name

@[simp] theorem notMem_parts_traceErr :
    Expr.field (.ident x) member ∉ t.traceErr.parts := by
  simp [Target.traceErr, Target.trace]

@[simp] theorem notMem_parts_failed : Expr.field (.ident x) member ∉ failed.parts := by
  simp [failed, Expr.ne]

@[simp] theorem mem_parts_checkErr {values : List Expr} :
    Expr.field (.ident x) member ∈ (checkErr t values).parts ↔
      ∃ v ∈ values, Expr.field (.ident x) member ∈ v.parts := by
  simp [checkErr, List.mem_flatMap]

@[simp] theorem mem_parts_tryCall {call : Expr} {values : List Expr} :
    Expr.field (.ident x) member ∈ (tryCall t call values).parts ↔
      Expr.field (.ident x) member ∈ call.parts ∨
        Expr.field (.ident x) member ∈ values.flatMap Expr.parts := by
  simp [tryCall]

@[simp] theorem mem_parts_takeTransaction {values : List Expr} :
    Expr.field (.ident x) member ∈ (takeTransaction t values).flatMap Stmt.parts ↔
      x = "d" ∧ member = "txGetter" ∨
        Expr.field (.ident x) member ∈ values.flatMap Expr.parts := by
  simp [takeTransaction, Expr.method]

@[simp] theorem mem_parts_keyField :
    Expr.field (.ident x) member ∈ d.keyField.parts ↔ x = "e" ∧ member = d.primaryKey.name := by
  simp [keyField]

@[simp] theorem mem_parts_isUnsaved :
    Expr.field (.ident x) member ∈ d.isUnsaved.parts ↔ x = "e" ∧ member = d.primaryKey.name := by
  simp [isUnsaved, Expr.eq]

@[simp] theorem mem_parts_keyQuery :
    Expr.field (.ident x) member ∈ d.keyQuery.parts ↔
      x = "d" ∧ member = "qb" ∨ x = "e" ∧ member = d.primaryKey.name := by
  simp [keyQuery, Expr.method]

@[simp] theorem mem_parts_updateMap :
    Expr.field (.ident x) member ∈ d.updateMap.parts ↔
      ∃ f ∈ d.updateFields, x = "e" ∧ member = f.name := by
  simp [updateMap]

/-- A condition is a call, so what it selects is selected by the query that it is added to. -/
theorem mem_parts_foldl_addCondition (lookup : Lookup) (args : List FinderArg) {query : Expr}
    (h : ∀ name, query ≠ .ident name) :
    Expr.field (.ident x) member ∈ (args.foldl (addCondition lookup) query).parts ↔
      Expr.field (.ident x) member ∈ query.parts := by
  induction args generalizing query with
  | nil => rfl
  | cons a rest ih =>
    have hcall : ∀ name, addCondition lookup query a ≠ .ident name := by
      intro name
      simp [addCondition, Expr.method]
    rw [List.foldl_cons, ih hcall]
    simp [addCondition, Expr.method, (h x).symm]

theorem mem_parts_finderQuery {f : Finder} :
    Expr.field (.ident x) member ∈ (finderQuery f).parts ↔
      x = "d" ∧ member = if f.isUserScoped then "uqb" else "qb" := by
  unfold finderQuery
  rw [mem_parts_foldl_addCondition f.lookup f.args (by simp [Expr.method])]
  simp [Expr.method]

theorem selects_of_insertBody
    (h : Expr.field (.ident x) member ∈ (d.insertBody t).flatMap Stmt.parts) :
    d.Selects x member := by
  have hcases : d.setsUserId = true ∧
        (x = "e" ∧ member = Names.field userIdColumn ∨ x = "d" ∧ member = "userIDGetter") ∨
      d.setsCreatedAt = true ∧ x = "e" ∧ member = Names.field createdAtColumn ∨
      x = "tx" ∧ member = "CreateByTable" ∨ x = "d" ∧ member = "tableName" ∨
      d.primaryKey.entityType.isInteger = true ∧ x = "e" ∧ member = d.primaryKey.name := by
    simpa [insertBody, stamp, Expr.method, Expr.addr] using h
  rcases hcases with ⟨howner, ⟨rfl, rfl⟩ | ⟨rfl, rfl⟩⟩ | ⟨hcreated, rfl, rfl⟩ | ⟨rfl, rfl⟩ |
    ⟨rfl, rfl⟩ | ⟨_, rfl, rfl⟩
  · exact .userId howner
  · exact .userIdGetter howner
  · exact .createdAt hcreated
  · exact .transaction _
  · exact .tableName
  · exact .key

theorem selects_of_updateBody
    (h : Expr.field (.ident x) member ∈ (d.updateBody t).flatMap Stmt.parts) :
    d.Selects x member := by
  have hcases : (x = "d" ∧ member = "qb" ∨ x = "e" ∧ member = d.primaryKey.name) ∨
      (∃ f ∈ d.updateFields, x = "e" ∧ member = f.name) ∨
      x = "tx" ∧ member = "UpdateByQueryBuilder" := by
    simpa [updateBody, Expr.method] using h
  rcases hcases with (⟨rfl, rfl⟩ | ⟨rfl, rfl⟩) | ⟨f, hf, rfl, rfl⟩ | ⟨rfl, rfl⟩
  · exact .builder
  · exact .key
  · exact .updated hf
  · exact .transaction _

/-! ## The methods -/

/-- A method of the type that implements the interface. -/
structure IsMethod (d : Dao) (t : Target) (fn : Function) : Prop where
  receiver : fn.receiver = some d.receiver
  selects : ∀ {x member}, fn.Selects x member → d.Selects x member
  /-- What it selects fields of is an entity. -/
  holds : ∀ {member}, fn.Selects "e" member → fn.Holds "e" (d.entityType t)

theorem isMethod_findsAll {fn : Function} (h : .func fn = d.findsAllItem t) : IsMethod d t fn := by
  have hcases : ∀ {x member}, fn.Selects x member →
      x = "d" ∧ member = "txGetter" ∨ x = "tx" ∧ member = "FindAllByTable" ∨
        x = "d" ∧ member = "tableName" := by
    cases h
    intro x member h
    simpa [Function.Selects, Function.parts, Expr.method, Expr.addr, Expr.deref,
      -List.mem_flatMap] using h
  refine ⟨by cases h; rfl, ?_, ?_⟩
  · intro x member h
    rcases hcases h with ⟨rfl, rfl⟩ | ⟨rfl, rfl⟩ | ⟨rfl, rfl⟩
    · exact .txGetter
    · exact .transaction _
    · exact .tableName
  · intro member h
    simpa using hcases h

theorem isMethod_save {fn : Function} (h : .func fn = d.saveItem t) : IsMethod d t fn := by
  cases h
  refine ⟨rfl, ?_, fun _ => .inl List.mem_cons_self⟩
  intro x member h
  simp only [Function.Selects, Function.parts, List.flatMap_append, List.mem_append] at h
  rcases h with (((htx | hnow) | hstamp) | htest) | hupdate
  · obtain ⟨rfl, rfl⟩ : x = "d" ∧ member = "txGetter" := by
      simpa [-List.mem_flatMap] using htx
    exact .txGetter
  · simp at hnow
  · obtain ⟨hset, rfl, rfl⟩ : d.setsUpdatedAt = true ∧ x = "e" ∧
        member = Names.field updatedAtColumn := by simpa [stamp, Expr.addr] using hstamp
    exact .updatedAt hset
  · have hinsert : (x = "e" ∧ member = d.primaryKey.name) ∨
        Expr.field (.ident x) member ∈ (d.insertBody t).flatMap Stmt.parts := by
      simpa [-List.mem_flatMap] using htest
    rcases hinsert with ⟨rfl, rfl⟩ | hinsert
    · exact .key
    · exact selects_of_insertBody hinsert
  · exact selects_of_updateBody hupdate

theorem isMethod_delete {fn : Function} (h : .func fn = d.deleteItem t) : IsMethod d t fn := by
  cases h
  refine ⟨rfl, ?_, fun _ => .inl List.mem_cons_self⟩
  intro x member h
  have hcases : x = "d" ∧ member = "txGetter" ∨ x = "e" ∧ member = d.primaryKey.name ∨
      (x = "d" ∧ member = "qb" ∨ x = "e" ∧ member = d.primaryKey.name) ∨
      x = "tx" ∧ member = "DeleteByQueryBuilder" := by
    simpa [Function.Selects, Function.parts, Expr.method, -List.mem_flatMap] using h
  rcases hcases with ⟨rfl, rfl⟩ | ⟨rfl, rfl⟩ | (⟨rfl, rfl⟩ | ⟨rfl, rfl⟩) | ⟨rfl, rfl⟩
  · exact .txGetter
  · exact .key
  · exact .builder
  · exact .key
  · exact .transaction _

theorem isMethod_finder {f : Finder} (hf : f ∈ d.methods) {fn : Function}
    (h : .func fn = d.finderItem t f) : IsMethod d t fn := by
  have hcases : ∀ {x member}, fn.Selects x member →
      x = "d" ∧ member = "txGetter" ∨ (x = "d" ∧ member = if f.isUserScoped then "uqb" else "qb") ∨
        x = "tx" ∧ member = "FindByQueryBuilder" ∨
        f.returnsCollection = false ∧ x = "e" ∧ member = d.primaryKey.name := by
    cases h
    intro x member h
    cases hmany : f.returnsCollection with
    | false =>
      simpa [hmany, Function.Selects, Function.parts, mem_parts_finderQuery, Expr.method,
        Expr.addr, -List.mem_flatMap] using h
    | true =>
      have hcases : x = "d" ∧ member = "txGetter" ∨
          (x = "d" ∧ member = if f.isUserScoped then "uqb" else "qb") ∨
            x = "tx" ∧ member = "FindByQueryBuilder" := by
        simpa [hmany, Function.Selects, Function.parts, mem_parts_finderQuery, Expr.method,
          Expr.addr, Expr.deref, -List.mem_flatMap] using h
      tauto
  refine ⟨by cases h; rfl, ?_, ?_⟩
  · intro x member h
    rcases hcases h with ⟨rfl, rfl⟩ | ⟨rfl, rfl⟩ | ⟨rfl, rfl⟩ | ⟨_, rfl, rfl⟩
    · exact .txGetter
    · split
      · rename_i howner
        exact .ownerBuilder hf howner
      · exact .builder
    · exact .transaction _
    · exact .key
  · intro member hselects
    obtain ⟨hsingle, _⟩ : f.returnsCollection = false ∧ member = d.primaryKey.name := by
      simpa using hcases hselects
    cases h
    refine .inr ?_
    simp [hsingle]

theorem not_selects_constructor {fn : Function} (h : .func fn = d.constructorItem t) :
    ¬ fn.Selects x member := by
  cases h
  have hvalues : Expr.field (.ident x) member ∉ (d.implValues t).flatMap (·.2.parts) := by
    unfold implValues
    split <;> simp [thunk, newQuery, newOwnerQuery, Expr.method]
  simpa [Function.Selects, Function.parts, Expr.addr, -List.mem_flatMap] using hvalues

/-- Each function of the file but the constructor is a method. -/
theorem isMethod_or_constructor {fn : Function} (h : fn ∈ (d.source t).functions) :
    IsMethod d t fn ∨ .func fn = d.constructorItem t := by
  have hitem : .func fn ∈ d.items t := SourceFile.mem_functions.mp h
  unfold items at hitem
  rcases List.mem_append.mp hitem with hitem | hlookup
  · rcases List.mem_append.mp hitem with htype | hfixed
    · have hnew : .func fn = d.constructorItem t := by
        simpa [interfaceItem] using htype
      exact .inr hnew
    · split at hfixed
      · exact .inl (isMethod_findsAll (List.mem_singleton.mp hfixed))
      · rcases List.mem_pair.mp hfixed with hsave | hdelete
        · exact .inl (isMethod_save hsave)
        · exact .inl (isMethod_delete hdelete)
  · obtain ⟨f, hf, hfn⟩ := List.mem_map.mp hlookup
    exact .inl (isMethod_finder hf hfn.symm)

/-! ## What is declared -/

theorem fields?_implName : (d.source t).fields? d.implName = some (d.implFields t) := by
  have hinterface : Item.fields? d.implName (d.interfaceItem t) = none := rfl
  have hstruct : Item.fields? d.implName (.struct d.implName (d.implFields t)) =
      some (d.implFields t) := if_pos rfl
  show (d.items t).findSome? _ = _
  unfold items
  rw [List.append_assoc]
  simp only [List.cons_append, List.findSome?_cons, hinterface, hstruct]

theorem names_implFields :
    (d.implFields t).map (·.name) = (d.implValues t).map (some ·.1) := by
  unfold implFields implValues
  split <;> rfl

theorem mem_names_implFields :
    some member ∈ (d.implFields t).map (·.name) ↔
      member ∈ ["tableName", "txGetter", "qb"] ∨
        d.hasUserIdGetter = true ∧ member ∈ ["userIDGetter", "uqb"] := by
  unfold implFields
  split <;> simp [Field.plain, or_assoc, *]

/-- Everything selected of the receiver is declared. -/
theorem mem_names_of_selects (hof : IsOf tb key d) (h : d.Selects x member) (hx : x = "d") :
    some member ∈ (d.implFields t).map (·.name) := by
  rw [mem_names_implFields, hof.hasUserIdGetter]
  cases h with
  | tableName | txGetter | builder => exact .inl (by decide)
  | ownerBuilder hf howner =>
    refine .inr ⟨?_, by decide⟩
    rw [Bool.or_eq_true, List.any_eq_true]
    exact .inr ⟨_, hof.methods ▸ hf, howner⟩
  | userIdGetter hset =>
    refine .inr ⟨?_, by decide⟩
    rw [hof.setsUserId, Bool.and_eq_true] at hset
    rw [hset.1, Bool.true_or]
  | _ => exact absurd hx (by decide)

theorem name_field (c : Column) : (field c).name = Names.field c.name := by
  rw [field]

theorem mem_fields_of_mem {c : Column} (hc : c ∈ tb.columns) :
    Names.field c.name ∈ (Entity.ofTable tb).fields.map (·.name) := by
  rw [Entity.names_fields_ofTable]
  exact List.mem_map.mpr ⟨c, hc, rfl⟩

theorem mem_fields_of_column? {column : String} {c : Column} (h : tb.column? column = some c) :
    Names.field column ∈ (Entity.ofTable tb).fields.map (·.name) := by
  have hname : c.name = column := by simpa using List.find?_some h
  rw [← hname]
  exact mem_fields_of_mem (List.mem_of_find?_eq_some h)

/-- Everything selected of an entity is a field of it. -/
theorem mem_fields_of_selects (hof : IsOf tb key d) (h : d.Selects x member) (hx : x = "e") :
    member ∈ (Entity.ofTable tb).fields.map (·.name) := by
  have htimestamp : ∀ column, hasTimestamp tb column = true →
      Names.field column ∈ (Entity.ofTable tb).fields.map (·.name) := by
    intro column hset
    obtain ⟨c, hc, _⟩ := hasTimestamp_iff.mp hset
    exact mem_fields_of_column? hc
  cases h with
  | key =>
    rw [hof.primaryKey, name_field]
    exact mem_fields_of_mem (List.mem_of_find?_eq_some hof.identifier)
  | createdAt hset =>
    rw [hof.setsCreatedAt] at hset
    exact htimestamp createdAtColumn hset
  | updatedAt hset =>
    rw [hof.setsUpdatedAt] at hset
    exact htimestamp updatedAtColumn hset
  | userId hset =>
    rw [hof.setsUserId, Bool.and_eq_true] at hset
    obtain ⟨c, hc⟩ := Option.isSome_iff_exists.mp hset.2
    exact mem_fields_of_column? hc
  | updated hf =>
    rw [hof.updateFields] at hf
    obtain ⟨c, hc, rfl⟩ := List.mem_map.mp hf
    rw [name_field]
    exact mem_fields_of_mem (List.mem_filter.mp hc).1
  | _ => exact absurd hx (by decide)

theorem selectsDeclared (hof : IsOf tb key d) :
    SelectsDeclared d (Entity.ofTable tb) t (d.implFields t) := by
  have hreceiver : ∀ fn ∈ (d.source t).functions, fn.receiver ≠ none → IsMethod d t fn := by
    intro fn hfn hr
    rcases isMethod_or_constructor hfn with hmethod | hnew
    · exact hmethod
    · cases hnew
      exact absurd rfl hr
  obtain ⟨signature, hconstructor⟩ : ∃ signature, d.constructorItem t = .free signature
      [.ret [.addr (.composite (.named d.implName) (d.implValues t))]] := ⟨_, rfl⟩
  refine ⟨fields?_implName, ?_, ?_, ⟨signature, _, ?_, names_implFields.symm⟩, ?_⟩
  · intro fn hfn r hr
    have hmethod := hreceiver fn hfn (by simp [hr])
    obtain rfl := Option.some.inj (hmethod.receiver.symm.trans hr)
    exact ⟨rfl, fun member h => mem_names_of_selects hof (hmethod.selects h) rfl⟩
  · intro member hmember
    rw [mem_names_implFields]
    have hother : member ∉ ["tableName", "txGetter", "qb"] := by
      rcases List.mem_pair.mp hmember with rfl | rfl <;> decide
    simp only [hother, false_or, hmember, and_true]
  · intro fn
    constructor
    · rintro ⟨hfn, hnone⟩
      rcases isMethod_or_constructor hfn with hmethod | hnew
      · rw [hmethod.receiver] at hnone
        cases hnone
      · exact Item.func.inj (hnew.trans hconstructor)
    · rintro rfl
      refine ⟨SourceFile.mem_functions.mpr ?_, rfl⟩
      rw [← Item.free, ← hconstructor]
      show d.constructorItem t ∈ d.items t
      simp [items]
  · intro fn hfn member h
    rcases isMethod_or_constructor hfn with hmethod | hnew
    · refine ⟨?_, mem_fields_of_selects hof (hmethod.selects h) rfl⟩
      have hname : d.name = (Entity.ofTable tb).name := hof.name
      rw [← hname]
      exact hmethod.holds h
    · exact absurd h (not_selects_constructor hnew)

theorem fieldsAgree {m : Model} (hof : IsOf tb key d) (hm : Model.ofTable tb = .ok m) :
    FieldsAgree (Entity.ofTable tb) d m := by
  unfold Model.ofTable at hm
  rw [hof.identifier] at hm
  obtain rfl := Except.ok.inj hm
  refine ⟨?_, Entity.field tb.convention.isReadOnly key, ?_, ?_⟩
  · simp only [Entity.names_fields_ofTable, List.map_map, Function.comp_def, ModelColumn.ofColumn]
  · rw [Entity.primaryKey?_ofTable, hof.identifier]
    rfl
  · simp only [hof.primaryKey, field, ModelColumn.ofColumn, Entity.field, and_self]

/-- The data access of a table selects only what is declared: of its receiver, members of its type,
and of an entity, fields of the entity of the same table. -/
theorem exists_selectsDeclared {tb : Table} {d : Dao} (h : ofTable tb = .ok d) (t : Target) :
    ∃ fields m, Model.ofTable tb = .ok m ∧ SelectsDeclared d (Entity.ofTable tb) t fields ∧
      FieldsAgree (Entity.ofTable tb) d m := by
  obtain ⟨key, hof⟩ := exists_isOf h
  obtain ⟨m, hm⟩ := (Model.exists_ofTable_iff tb).mpr ⟨key, hof.identifier⟩
  exact ⟨_, m, hm, selectsDeclared hof, fieldsAgree hof hm⟩

/-- Items belong to users, so the type has the members for the current user. -/
theorem userItems_selectsDeclared :
    ∃ d fields m, ofTable Declaration.userItemsTable = .ok d ∧
      Model.ofTable Declaration.userItemsTable = .ok m ∧
      fields.map (·.name) = ["tableName", "txGetter", "qb", "userIDGetter", "uqb"].map some ∧
      SelectsDeclared d (Entity.ofTable Declaration.userItemsTable) (.ofModule "example") fields ∧
      FieldsAgree (Entity.ofTable Declaration.userItemsTable) d m := by
  obtain ⟨d, hd⟩ : ∃ d, ofTable Declaration.userItemsTable = .ok d := ⟨_, rfl⟩
  obtain ⟨key, hof⟩ := exists_isOf hd
  obtain ⟨fields, m, hm, hselects, hagree⟩ := exists_selectsDeclared hd (.ofModule "example")
  refine ⟨d, fields, m, hd, hm, ?_, hselects, hagree⟩
  have hscoped : Declaration.userItemsTable.convention.isUserScoped = true := by decide +kernel
  have hgetter : d.hasUserIdGetter = true := by rw [hof.hasUserIdGetter, hscoped, Bool.true_or]
  obtain rfl := Option.some.inj (hselects.declared.symm.trans fields?_implName)
  simp [implFields, hgetter, Field.plain]

end Dao

end Tablewright
