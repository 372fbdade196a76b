import Tablewright.Entity.Basic
import Tablewright.Proofs.Code.Paths
import Tablewright.Proofs.Dao.Methods

/-! How a data access saves an entity. Once it has a transaction, every path tests whether the row
is new, and then either inserts it, and returns in that branch, or updates it. -/

namespace Tablewright

open Code Event

namespace Dao

/-! ## What saving is to do -/

/-- The field of the entity `e` that holds a column. -/
def fieldOf (c : Column) : Expr := .field (.ident "e") (Entity.field false c).name

/-- The test that the identifier is still the zero of its type. -/
def isNew (key : Column) : Expr := .eq (fieldOf key) key.entityType.zeroValue

/-- The path gets a transaction. -/
def TakesTransaction (es : List Event) : Prop :=
  ∃ rest, es = .define ["tx", "err"] (.method (.ident "d") "txGetter" []) ::
    .test failed false :: rest

/-- The event stores a value in the entity's field for a column. -/
def Stores (column : String) : Event → Prop
  | .assign (.field (.ident "e") name) _ => name = Names.field column
  | _ => False

/-- The call that inserts the entity. -/
def creation : Call := ⟨.ident "tx", "CreateByTable", [.field (.ident "d") "tableName", .ident "e"]⟩

/-- The call that writes the values `m` to the rows of the query `b`. -/
def update : Call := ⟨.ident "tx", "UpdateByQueryBuilder", [.ident "b", .ident "m"]⟩

/-- The columns that an update writes. -/
def updatedColumns (tb : Table) : List Column :=
  tb.columns.filter fun c =>
    !c.isPrimaryKey && c.name ≠ idColumn && c.name ≠ createdAtColumn && c.name ≠ userIdColumn

/-- The path inserts the entity, once, and updates nothing. -/
structure Inserts (key : Column) (body : List Stmt) (es : List Event) : Prop where
  /-- It returns in the branch of new rows. -/
  branch : ∃ before insert after es₁ es₂, body = before ++ .when none (isNew key) insert :: after ∧
    es = es₁ ++ .test (isNew key) true :: es₂ ∧ Path before es₁ .falls ∧ Path insert es₂ .returns
  creations : callsOf "CreateByTable" es = [creation]
  updates : callsOf "UpdateByQueryBuilder" es = []

/-- The path updates the row of the entity, once, and inserts nothing. -/
structure Updates (tb : Table) (key : Column) (body : List Stmt) (es : List Event) : Prop where
  /-- It goes on behind the branch of new rows. -/
  branch : ∃ before insert after es₁ es₂, body = before ++ .when none (isNew key) insert :: after ∧
    es = es₁ ++ .test (isNew key) false :: es₂ ∧ Path before es₁ .falls ∧ Path after es₂ .returns
  notNew : .test (isNew key) true ∉ es
  creations : callsOf "CreateByTable" es = []
  updates : callsOf "UpdateByQueryBuilder" es = [update]
  /-- The row is the one with the identifier of the entity. -/
  row : definitionsOf "b" es =
    [.method (.method (.ident "d") "qb" []) "Eq" [.str key.name, fieldOf key]]
  /-- Each of the columns is written once, from its own field. -/
  values : definitionsOf "m" es =
    [.map (.named "string") .any ((updatedColumns tb).map fun c => (.str c.name, fieldOf c))]

/-- A body that saves an entity: every path that gets a transaction inserts or updates, and there
are paths of both kinds. -/
structure SavesOnce (tb : Table) (key : Column) (body : List Stmt) : Prop where
  once : ∀ es exit, Path body es exit → TakesTransaction es →
    Inserts key body es ∨ Updates tb key body es
  inserts : ∃ es, Path body es .returns ∧ TakesTransaction es ∧ Inserts key body es
  updates : ∃ es, Path body es .returns ∧ TakesTransaction es ∧ Updates tb key body es
  /-- Owner and creation time are stored only once the row is known to be new. -/
  owner : ∀ es exit, Path body es exit → ∀ column ∈ [userIdColumn, createdAtColumn],
    OnlyAfter (.test (isNew key) true) (Stores column) es
  /-- The time of the update is stored in both cases, if there is a column for it. -/
  stamp : (∀ es exit, Path body es exit → TakesTransaction es →
      ∃ e ∈ es, Stores updatedAtColumn e) ↔
    ∃ c, tb.column? updatedAtColumn = some c ∧ c.entityType = .timestamp

variable {d : Dao} {tb : Table} {key : Column} (t : Target) {rest : List Stmt} {es : List Event}
  {exit : Exit}

/-! ## The paths of the body -/

theorem takeTransaction_iff {values : List Expr} :
    Path (takeTransaction t values ++ rest) es exit ↔
      (∃ es', es = .define ["tx", "err"] (.method (.ident "d") "txGetter" []) ::
        .test failed false :: es' ∧ Path rest es' exit) ∨
      es = [.define ["tx", "err"] (.method (.ident "d") "txGetter" []), .test failed true,
        .ret (values ++ [t.traceErr])] ∧ exit = .returns := by
  unfold takeTransaction
  rw [List.cons_append, List.cons_append, List.nil_append, Path.define_iff]
  simp only [Path.checkErr_iff]
  constructor
  · rintro ⟨_, rfl, ⟨es', rfl, tail⟩ | ⟨rfl, rfl⟩⟩
    · exact .inl ⟨es', rfl, tail⟩
    · exact .inr ⟨rfl, rfl⟩
  · rintro (⟨es', rfl, tail⟩ | ⟨rfl, rfl⟩)
    · exact ⟨_, rfl, .inl ⟨es', rfl, tail⟩⟩
    · exact ⟨_, rfl, .inr ⟨rfl, rfl⟩⟩

/-- What is done before the test: the clock is read, and the time of the update is stored. -/
def stampEvents (d : Dao) : List Event :=
  (if d.setsCreatedAt || d.setsUpdatedAt then
    [.define ["now"] (.call (.qualified timePath "Now") [])] else []) ++
  (if d.setsUpdatedAt then
    [.assign (.field (.ident "e") (Names.field updatedAtColumn)) (.addr (.ident "now"))] else [])

/-- What is done before a row is inserted: its owner and the time of its creation are stored. -/
def ownerEvents (d : Dao) : List Event :=
  (if d.setsUserId then
    [.assign (.field (.ident "e") (Names.field userIdColumn))
      (.method (.ident "d") "userIDGetter" [])] else []) ++
  (if d.setsCreatedAt then
    [.assign (.field (.ident "e") (Names.field createdAtColumn)) (.addr (.ident "now"))] else [])

/-- What is done after a row is inserted: the identifier that it was given is stored. -/
def keyEvents (d : Dao) : List Event :=
  if d.primaryKey.entityType.isInteger then
    [.assign d.keyField (.call (.ident d.primaryKey.entityType.name) [.ident "id"])] else []

def creationEvent : Event :=
  .define ["id", "err"]
    (.method (.ident "tx") "CreateByTable" [.field (.ident "d") "tableName", .ident "e"])

def updateEvents (d : Dao) : List Event :=
  [.define ["b"]
      (.method (.method (.ident "d") "qb" []) "Eq" [.str d.primaryKey.column, d.keyField]),
    .define ["m"] d.updateMap,
    .define ["err"] (.method (.ident "tx") "UpdateByQueryBuilder" [.ident "b", .ident "m"])]

theorem insertBody_iff :
    Path (d.insertBody t) es exit ↔
      exit = .returns ∧
        (es = d.ownerEvents ++
            creationEvent :: .test failed false :: (d.keyEvents ++ [.ret [.nil]]) ∨
          es = d.ownerEvents ++ [creationEvent, .test failed true, .ret [t.traceErr]]) := by
  have howner : ((if d.setsUserId then [Stmt.assign (.field (.ident "e") (Names.field userIdColumn))
      (.method (.ident "d") "userIDGetter" [])] else []) ++
      (if d.setsCreatedAt then [stamp createdAtColumn] else [])).map Stmt.event? =
        d.ownerEvents.map some := by
    unfold ownerEvents
    cases d.setsUserId <;> cases d.setsCreatedAt <;> rfl
  have hkey : (if d.primaryKey.entityType.isInteger then
      [Stmt.assign d.keyField (.call (.ident d.primaryKey.entityType.name) [.ident "id"])]
      else []).map Stmt.event? = d.keyEvents.map some := by
    unfold keyEvents
    cases d.primaryKey.entityType.isInteger <;> rfl
  unfold insertBody
  rw [List.append_assoc, List.append_assoc, Path.steps_iff howner, List.cons_append,
    List.cons_append, List.nil_append]
  simp only [Path.define_iff, Path.checkErr_iff, Path.steps_iff hkey, Path.ret_iff]
  constructor
  · rintro ⟨_, rfl, _, rfl, ⟨_, rfl, _, rfl, rfl, rfl⟩ | ⟨rfl, rfl⟩⟩
    · exact ⟨rfl, .inl rfl⟩
    · exact ⟨rfl, .inr rfl⟩
  · rintro ⟨rfl, rfl | rfl⟩
    · exact ⟨_, rfl, _, rfl, .inl ⟨_, rfl, _, rfl, rfl, rfl⟩⟩
    · exact ⟨_, rfl, _, rfl, .inr ⟨rfl, rfl⟩⟩

theorem updateBody_iff :
    Path (d.updateBody t) es exit ↔
      exit = .returns ∧
        (es = d.updateEvents ++ [.test failed false, .ret [.nil]] ∨
          es = d.updateEvents ++ [.test failed true, .ret [t.traceErr]]) := by
  unfold updateBody keyQuery
  simp only [Path.define_iff, Path.tryCall_iff, Path.ret_iff]
  constructor
  · rintro ⟨_, rfl, _, rfl, ⟨_, rfl, rfl, rfl⟩ | ⟨rfl, rfl⟩⟩
    · exact ⟨rfl, .inl rfl⟩
    · exact ⟨rfl, .inr rfl⟩
  · rintro ⟨rfl, rfl | rfl⟩
    · exact ⟨_, rfl, _, rfl, .inl ⟨_, rfl, rfl, rfl⟩⟩
    · exact ⟨_, rfl, _, rfl, .inr ⟨rfl, rfl⟩⟩

/-- The body up to the test. -/
def beforeTest (d : Dao) (t : Target) : List Stmt :=
  takeTransaction t [] ++
    (if d.setsCreatedAt || d.setsUpdatedAt then
      [.define ["now"] (.call (.qualified timePath "Now") [])]
    else []) ++
    (if d.setsUpdatedAt then [stamp updatedAtColumn] else [])

def saveBody (d : Dao) (t : Target) : List Stmt :=
  d.beforeTest t ++ .when none d.isUnsaved (d.insertBody t) :: d.updateBody t

theorem saveItem_eq :
    d.saveItem t = .method d.receiver (d.entitySignature t "Save") (d.saveBody t) := by
  unfold saveItem saveBody beforeTest
  rw [← List.append_cons]

/-- A path that has a transaction, up to the test. -/
def begunEvents (d : Dao) : List Event :=
  .define ["tx", "err"] (.method (.ident "d") "txGetter" []) :: .test failed false :: d.stampEvents

/-- A path that gets no transaction. -/
def refusedEvents (t : Target) : List Event :=
  [.define ["tx", "err"] (.method (.ident "d") "txGetter" []), .test failed true,
    .ret [t.traceErr]]

theorem beforeTest_iff :
    Path (d.beforeTest t ++ rest) es exit ↔
      (∃ es', es = d.begunEvents ++ es' ∧ Path rest es' exit) ∨
        es = refusedEvents t ∧ exit = .returns := by
  have hstamps : ((if d.setsCreatedAt || d.setsUpdatedAt then
      [Stmt.define ["now"] (.call (.qualified timePath "Now") [])] else []) ++
      (if d.setsUpdatedAt then [stamp updatedAtColumn] else [])).map Stmt.event? =
        d.stampEvents.map some := by
    unfold stampEvents
    cases d.setsCreatedAt <;> cases d.setsUpdatedAt <;> rfl
  unfold beforeTest
  rw [List.append_assoc (takeTransaction t []), List.append_assoc, takeTransaction_iff]
  simp only [Path.steps_iff hstamps]
  constructor
  · rintro (⟨_, rfl, es', rfl, tail⟩ | h)
    · exact .inl ⟨es', rfl, tail⟩
    · exact .inr h
  · rintro (⟨es', rfl, tail⟩ | h)
    · exact .inl ⟨_, rfl, es', rfl, tail⟩
    · exact .inr h

/-- Every path returns. If it has a transaction, it inserts in the branch of new rows, or it goes
on behind that branch and updates. -/
theorem saveBody_iff :
    Path (d.saveBody t) es exit ↔
      exit = .returns ∧
        (es = refusedEvents t ∨
          (∃ es', es = d.begunEvents ++ .test d.isUnsaved true :: es' ∧
            Path (d.insertBody t) es' .returns) ∨
          ∃ es', es = d.begunEvents ++ .test d.isUnsaved false :: es' ∧
            Path (d.updateBody t) es' .returns) := by
  unfold saveBody
  rw [beforeTest_iff]
  simp only [Path.when_iff]
  constructor
  · rintro (⟨_, rfl, ⟨es', rfl, hupdate⟩ | ⟨_, _, _, hinsert, _⟩ | ⟨es', rfl, hinsert, rfl⟩⟩ |
      ⟨rfl, rfl⟩)
    · obtain ⟨rfl, _⟩ := (updateBody_iff t).mp hupdate
      exact ⟨rfl, .inr (.inr ⟨es', rfl, hupdate⟩)⟩
    · obtain ⟨hexit, _⟩ := (insertBody_iff t).mp hinsert
      cases hexit
    · exact ⟨rfl, .inr (.inl ⟨es', rfl, hinsert⟩)⟩
    · exact ⟨rfl, .inl rfl⟩
  · rintro ⟨rfl, rfl | ⟨es', rfl, hinsert⟩ | ⟨es', rfl, hupdate⟩⟩
    · exact .inr ⟨rfl, rfl⟩
    · exact .inl ⟨_, rfl, .inr (.inr ⟨es', rfl, hinsert, rfl⟩)⟩
    · exact .inl ⟨_, rfl, .inl ⟨es', rfl, hupdate⟩⟩

/-! ## The calls on a path -/

theorem callsOf_begunEvents {method : String} (h : method ≠ "txGetter") :
    callsOf method d.begunEvents = [] := by
  have hstamps : callsOf method d.stampEvents = [] := by
    unfold stampEvents
    rw [callsOf_append]
    split <;> split <;> simp [Expr.addr]
  simp [begunEvents, hstamps, failed, Expr.ne, h.symm]

theorem callsOf_ownerEvents {method : String} (h : method ≠ "userIDGetter") :
    callsOf method d.ownerEvents = [] := by
  unfold ownerEvents
  rw [callsOf_append]
  split <;> split <;> simp [Expr.addr, h.symm]

theorem callsOf_keyEvents (method : String) : callsOf method d.keyEvents = [] := by
  unfold keyEvents
  split <;> simp [keyField]

theorem calls_updateMap : d.updateMap.calls = [] := by
  simp [updateMap]

theorem callsOf_inserting (h : Path (d.insertBody t) es .returns) {method : String}
    (htx : method ≠ "txGetter") (howner : method ≠ "userIDGetter") :
    callsOf method (d.begunEvents ++ .test d.isUnsaved true :: es) =
      creationEvent.calls.filter (·.method = method) := by
  obtain ⟨_, rfl | rfl⟩ := (insertBody_iff t).mp h <;>
    simp [callsOf_begunEvents htx, callsOf_ownerEvents howner, callsOf_keyEvents, isUnsaved,
      keyField, failed, Expr.eq, Expr.ne, Target.traceErr, Target.trace]

theorem callsOf_updating (h : Path (d.updateBody t) es .returns) {method : String}
    (htx : method ≠ "txGetter") :
    callsOf method (d.begunEvents ++ .test d.isUnsaved false :: es) =
      callsOf method d.updateEvents := by
  obtain ⟨_, rfl | rfl⟩ := (updateBody_iff t).mp h <;>
    simp [callsOf_begunEvents htx, isUnsaved, keyField, failed, Expr.eq, Expr.ne, Target.traceErr,
      Target.trace]

/-! ## The definitions on a path -/

theorem definitionsOf_begunEvents {name : String} (h : name ≠ "now") :
    definitionsOf name d.begunEvents = [] := by
  have hstamps : definitionsOf name d.stampEvents = [] := by
    unfold stampEvents
    rw [definitionsOf_append]
    split <;> split <;> simp [h.symm]
  simp [begunEvents, hstamps]

theorem definitionsOf_updating (h : Path (d.updateBody t) es .returns) {name : String}
    (hnow : name ≠ "now") :
    definitionsOf name (d.begunEvents ++ .test d.isUnsaved false :: es) =
      definitionsOf name d.updateEvents := by
  obtain ⟨_, rfl | rfl⟩ := (updateBody_iff t).mp h <;> simp [definitionsOf_begunEvents hnow]

theorem updatedColumns_eq (tb : Table) : updatedColumns tb = tb.columns.filter isUpdated := by
  unfold updatedColumns
  congr 1
  funext c
  simp [isUpdated, isUpdateExcluded, Bool.and_assoc]

theorem updateMap_eq (h : IsOf tb key d) :
    d.updateMap =
      .map (.named "string") .any ((updatedColumns tb).map fun c => (.str c.name, fieldOf c)) := by
  unfold updateMap
  rw [h.updateFields, List.map_map, updatedColumns_eq]
  rfl

theorem keyField_eq (h : IsOf tb key d) : d.keyField = fieldOf key := by
  unfold keyField
  rw [h.primaryKey]
  rfl

theorem isUnsaved_eq (h : IsOf tb key d) : d.isUnsaved = isNew key := by
  unfold isUnsaved
  rw [keyField_eq h, h.primaryKey]
  rfl

theorem test_notMem_updating (h : Path (d.updateBody t) es .returns) :
    .test d.isUnsaved true ∉ d.begunEvents ++ .test d.isUnsaved false :: es := by
  have hbegun : Event.test d.isUnsaved true ∉ d.begunEvents := by
    simp [begunEvents, stampEvents]
  have hother : d.isUnsaved ≠ failed := by
    simp [isUnsaved, keyField, Expr.eq, failed, Expr.ne]
  obtain ⟨_, rfl | rfl⟩ := (updateBody_iff t).mp h <;> simp [hbegun, hother, updateEvents]

/-! ## What is stored on a path -/

theorem of_stores_begunEvents {column : String} {e : Event} (he : e ∈ d.begunEvents)
    (hs : Stores column e) :
    d.setsUpdatedAt = true ∧ Names.field updatedAtColumn = Names.field column := by
  simp only [begunEvents, stampEvents, List.mem_cons, List.mem_append, List.mem_ite_nil_right,
    List.not_mem_nil, or_false] at he
  rcases he with rfl | rfl | ⟨_, rfl⟩ | ⟨hset, rfl⟩
  · cases hs
  · cases hs
  · cases hs
  · exact ⟨hset, hs⟩

theorem not_stores_of_updating (h : Path (d.updateBody t) es .returns) {column : String} :
    ∀ e ∈ es, ¬ Stores column e := by
  obtain ⟨_, rfl | rfl⟩ := (updateBody_iff t).mp h <;> simp [updateEvents, Stores]

theorem field_updatedAt_ne {column : String} (h : column ∈ [userIdColumn, createdAtColumn]) :
    Names.field updatedAtColumn ≠ Names.field column := by
  have hall : ∀ c ∈ [userIdColumn, createdAtColumn],
      Names.field updatedAtColumn ≠ Names.field c := by
    decide +kernel
  exact hall column h

/-- Before the test neither the owner nor the time of creation is stored. -/
theorem onlyAfter_test {column : String} (hc : column ∈ [userIdColumn, createdAtColumn])
    (h : Path (d.saveBody t) es exit) :
    OnlyAfter (.test d.isUnsaved true) (Stores column) es := by
  have hbegun : ∀ e ∈ d.begunEvents, ¬ Stores column e := fun e he hs =>
    field_updatedAt_ne hc (of_stores_begunEvents he hs).2
  have htest : ∀ holds, ¬ Stores column (.test d.isUnsaved holds) := fun _ => id
  obtain ⟨_, rfl | ⟨es', rfl, _⟩ | ⟨es', rfl, hupdate⟩⟩ := (saveBody_iff t).mp h
  · exact onlyAfter_of_forall_not (by simp [refusedEvents, Stores])
  · exact onlyAfter_append hbegun (onlyAfter_guard (htest true))
  · refine onlyAfter_append hbegun (onlyAfter_cons (htest false) ?_)
    exact onlyAfter_of_forall_not (not_stores_of_updating t hupdate)

/-! ## Saving -/

theorem takesTransaction_begunEvents : TakesTransaction (d.begunEvents ++ es) := ⟨_, rfl⟩

theorem begunEvents_falls : Path (d.beforeTest t) d.begunEvents .falls := by
  rw [← List.append_nil (d.beforeTest t), beforeTest_iff]
  exact .inl ⟨[], by simp, .nil⟩

theorem inserts_of_path (hof : IsOf tb key d) (h : Path (d.insertBody t) es .returns) :
    Inserts key (d.saveBody t) (d.begunEvents ++ .test d.isUnsaved true :: es) := by
  refine ⟨?_, ?_, ?_⟩
  · rw [← isUnsaved_eq hof]
    exact ⟨_, _, _, _, _, rfl, rfl, begunEvents_falls t, h⟩
  · rw [callsOf_inserting t h (by decide) (by decide)]
    simp [creationEvent, creation]
  · rw [callsOf_inserting t h (by decide) (by decide)]
    simp [creationEvent]

theorem updates_of_path (hof : IsOf tb key d) (h : Path (d.updateBody t) es .returns) :
    Updates tb key (d.saveBody t) (d.begunEvents ++ .test d.isUnsaved false :: es) := by
  refine ⟨?_, ?_, ?_, ?_, ?_, ?_⟩
  · rw [← isUnsaved_eq hof]
    exact ⟨_, _, _, _, _, rfl, rfl, begunEvents_falls t, h⟩
  · rw [← isUnsaved_eq hof]
    exact test_notMem_updating t h
  · rw [callsOf_updating t h (by decide)]
    simp [updateEvents, calls_updateMap, keyField]
  · rw [callsOf_updating t h (by decide)]
    simp [updateEvents, calls_updateMap, keyField, update]
  · rw [definitionsOf_updating t h (by decide)]
    have hrow : definitionsOf "b" d.updateEvents =
        [.method (.method (.ident "d") "qb" []) "Eq" [.str d.primaryKey.column, d.keyField]] := by
      simp [updateEvents]
    rw [hrow, keyField_eq hof, hof.primaryKey]
    rfl
  · rw [definitionsOf_updating t h (by decide)]
    simp [updateEvents, updateMap_eq hof]

/-- What is stored on every path that gets a transaction is stored before the test. -/
theorem stores_updatedAt_iff :
    (∀ es exit, Path (d.saveBody t) es exit → TakesTransaction es →
      ∃ e ∈ es, Stores updatedAtColumn e) ↔ d.setsUpdatedAt = true := by
  constructor
  · intro hall
    have hupdate : Path (d.updateBody t) (d.updateEvents ++ [.test failed false, .ret [.nil]])
        .returns := (updateBody_iff t).mpr ⟨rfl, .inl rfl⟩
    have hpath := (saveBody_iff t).mpr ⟨rfl, .inr (.inr ⟨_, rfl, hupdate⟩)⟩
    obtain ⟨e, he, hs⟩ := hall _ _ hpath takesTransaction_begunEvents
    rcases List.mem_append.mp he with he | he
    · exact (of_stores_begunEvents he hs).1
    · rcases List.mem_cons.mp he with rfl | he
      · cases hs
      · exact absurd hs (not_stores_of_updating t hupdate e he)
  · intro hset es exit hpath htx
    have hstamp : ∃ e ∈ d.begunEvents, Stores updatedAtColumn e := by
      refine ⟨.assign (.field (.ident "e") (Names.field updatedAtColumn)) (.addr (.ident "now")),
        ?_, rfl⟩
      simp [begunEvents, stampEvents, hset]
    obtain ⟨e, he, hs⟩ := hstamp
    obtain ⟨_, rfl | ⟨es', rfl, _⟩ | ⟨es', rfl, _⟩⟩ := (saveBody_iff t).mp hpath
    · obtain ⟨rest, hrest⟩ := htx
      cases hrest
    · exact ⟨e, List.mem_append_left _ he, hs⟩
    · exact ⟨e, List.mem_append_left _ he, hs⟩

theorem savesOnce_saveBody (hof : IsOf tb key d) : SavesOnce tb key (d.saveBody t) := by
  have hinsert : Path (d.insertBody t)
      (d.ownerEvents ++ creationEvent :: .test failed false :: (d.keyEvents ++ [.ret [.nil]]))
      .returns := (insertBody_iff t).mpr ⟨rfl, .inl rfl⟩
  have hupdate : Path (d.updateBody t) (d.updateEvents ++ [.test failed false, .ret [.nil]])
      .returns := (updateBody_iff t).mpr ⟨rfl, .inl rfl⟩
  refine ⟨?_, ?_, ?_, ?_, ?_⟩
  · intro es exit hpath htx
    obtain ⟨_, rfl | ⟨es', rfl, h⟩ | ⟨es', rfl, h⟩⟩ := (saveBody_iff t).mp hpath
    · obtain ⟨rest, hrest⟩ := htx
      cases hrest
    · exact .inl (inserts_of_path t hof h)
    · exact .inr (updates_of_path t hof h)
  · exact ⟨_, (saveBody_iff t).mpr ⟨rfl, .inr (.inl ⟨_, rfl, hinsert⟩)⟩,
      takesTransaction_begunEvents, inserts_of_path t hof hinsert⟩
  · exact ⟨_, (saveBody_iff t).mpr ⟨rfl, .inr (.inr ⟨_, rfl, hupdate⟩)⟩,
      takesTransaction_begunEvents, updates_of_path t hof hupdate⟩
  · intro es exit hpath column hc
    rw [← isUnsaved_eq hof]
    exact onlyAfter_test t hc hpath
  · rw [stores_updatedAt_iff, hof.setsUpdatedAt, hasTimestamp_iff]

/-- The one function `Save` of a table that is not just read saves an entity. -/
theorem save_savesOnce {tb : Table} {d : Dao} (h : ofTable tb = .ok d)
    (hw : tb.convention.isReadOnly = false) (t : Target) :
    ∃ key fn, tb.primaryKeyColumn? = some key ∧
      (d.source t).functions.filter (·.signature.name = "Save") = [fn] ∧
      fn.receiver = some d.receiver ∧ fn.signature = d.entitySignature t "Save" ∧
      SavesOnce tb key fn.body := by
  obtain ⟨key, hof⟩ := exists_isOf h
  have hmutable : d.isReadOnly = false := by
    unfold isReadOnly
    rw [hof.convention, hw]
  have hitem : d.saveItem t ∈ (d.source t).items := by
    refine List.mem_append_left _ (List.mem_append_right _ ?_)
    simp [hmutable]
  rw [saveItem_eq] at hitem
  exact ⟨key, _, hof.identifier, functions_named t h (SourceFile.mem_functions.mpr hitem), rfl, rfl,
    savesOnce_saveBody t hof⟩

/-- Friends of a user, with the times at which they were added and last changed. -/
def friends : Table :=
  { name := "user_friends"
    columns := [
      ⟨"id", "bigint", .uint64, 0, true, true, true, none, true, [], []⟩,
      ⟨"user_id", "bigint", .uint64, 0, false, true, true, none, false, ["pair"], []⟩,
      ⟨"other_user_id", "bigint", .uint64, 0, false, true, true, none, false, ["pair"], []⟩,
      ⟨"created_at", "datetime", .timestamp, 0, false, false, false, none, false, [], []⟩,
      ⟨"updated_at", "datetime", .timestamp, 0, false, false, false, none, false, [], []⟩]
    indexes := [
      ⟨"PRIMARY", true, true, ["id"]⟩,
      ⟨"pair", false, true, ["user_id", "other_user_id"]⟩]
    isReadOnly := false }

theorem friends_savesOnce :
    ∃ d key fn, ofTable friends = .ok d ∧ friends.convention.isReadOnly = false ∧
      (d.source (.ofModule "example")).functions.filter (·.signature.name = "Save") = [fn] ∧
      key.name = "id" ∧ SavesOnce friends key fn.body ∧
      (updatedColumns friends).map (·.name) = ["other_user_id", "updated_at"] := by
  have hw : friends.convention.isReadOnly = false := by decide +kernel
  obtain ⟨key, fn, hkey, hfn, _, _, hsaves⟩ :=
    save_savesOnce (show ofTable friends = _ from rfl) hw (.ofModule "example")
  obtain rfl := Option.some.inj hkey
  exact ⟨_, _, fn, rfl, hw, hfn, rfl, hsaves, by decide +kernel⟩

end Dao

end Tablewright
