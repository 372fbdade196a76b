import Tablewright.Proofs.Code.Assignments
import Tablewright.Proofs.Dao.NilSafety
import Tablewright.Proofs.Dao.Save

/-! What saving stores in an entity before the row is written: the present time, the current user as
the owner, and the identifier that a new row was given. Times are stored where a column holds points
in time, and identifiers where they are numbers, but the owner is stored whatever its column
holds. -/

namespace Tablewright

open Code

namespace Dao

/-! ## What is to be stored -/

/-- A column that a value is stored for, and the type of the value. -/
structure Stamp where
  column : Column
  value : Expr
  type : TypeRef

/-- The value has the type of the column. -/
def Stamp.Fits (s : Stamp) : Prop := s.type = s.column.entityType.valueType

/-- The present time, for a column that holds points in time. -/
def timeStamp? (tb : Table) (column : String) : Option Stamp :=
  ((tb.column? column).filter (·.entityType == .timestamp)).map
    (⟨·, .addr (.ident "now"), timestampType⟩)

/-- The current user, for the owner of a row. -/
def ownerStamp? (tb : Table) : Option Stamp :=
  if tb.convention.isUserScoped then
    (tb.column? userIdColumn).map
      (⟨·, .method (.ident "d") "userIDGetter" [], .named "uint64"⟩)
  else none

/-- The identifier that a new row was given, as a number of the type of the key. Keys of other types
keep what they have. -/
def keyStamp? (key : Column) : Option Stamp :=
  if key.entityType.isInteger then
    some ⟨key, .call (.ident key.entityType.name) [.ident "id"], .named key.entityType.name⟩
  else none

/-- What saving stores, in this order. -/
def stamps (tb : Table) (key : Column) : List Stamp :=
  (timeStamp? tb updatedAtColumn).toList ++ (ownerStamp? tb).toList ++
    (timeStamp? tb createdAtColumn).toList ++ (keyStamp? key).toList

/-- The column of the owner, if rows have one, has the type of the current user. -/
def OwnerFits (tb : Table) : Prop :=
  tb.convention.isUserScoped = true →
    ∀ c, tb.column? userIdColumn = some c → c.entityType = .uint64

/-- The assignment stores the value in the entity's field for the column. -/
structure IsStamp (w : Visible) (tb : Table) (a : Assignment) (s : Stamp) : Prop where
  declared : s.column ∈ tb.columns
  target : a.target = fieldOf s.column
  value : a.value = s.value
  field : w.Gives a.scope a.target [s.column.entityType.valueType]
  /-- If the record has distinct fields, the field has no other type. -/
  only : (tb.columns.map fun c => Names.field c.name).Nodup →
    w.GivesOnly a.scope a.target s.column.entityType.valueType
  stored : w.GivesOnly a.scope a.value s.type

variable {d : Dao} {tb : Table} {key c : Column} {t : Target} {column : String} {s : Stamp}

theorem timeStamp?_eq_some (h : timeStamp? tb column = some s) :
    tb.column? column = some s.column ∧ s.column.entityType = .timestamp ∧
      s.value = .addr (.ident "now") ∧ s.type = timestampType := by
  obtain ⟨c, hc, rfl⟩ := Option.map_eq_some_iff.mp h
  obtain ⟨hfind, htime⟩ := Option.filter_eq_some_iff.mp hc
  exact ⟨hfind, by simpa using htime, rfl, rfl⟩

theorem ownerStamp?_eq_some (h : ownerStamp? tb = some s) :
    tb.convention.isUserScoped = true ∧ tb.column? userIdColumn = some s.column ∧
      s.value = .method (.ident "d") "userIDGetter" [] ∧ s.type = .named "uint64" := by
  unfold ownerStamp? at h
  split at h
  · rename_i hscoped
    obtain ⟨c, hc, rfl⟩ := Option.map_eq_some_iff.mp h
    exact ⟨hscoped, hc, rfl, rfl⟩
  · cases h

theorem keyStamp?_eq_some (h : keyStamp? key = some s) :
    key.entityType.isInteger = true ∧ s = ⟨key, .call (.ident key.entityType.name) [.ident "id"],
      .named key.entityType.name⟩ := by
  unfold keyStamp? at h
  split at h
  · rename_i hinteger
    exact ⟨hinteger, (Option.some.inj h).symm⟩
  · cases h

theorem valueType_of_isInteger {e : EntityType} (h : e.isInteger = true) :
    e.valueType = .named e.name ∧ e.name ∈ numberTypes := by
  cases e <;> first | exact ⟨rfl, by decide⟩ | cases h

theorem valueType_eq_uint64_iff {e : EntityType} : .named "uint64" = e.valueType ↔ e = .uint64 := by
  cases e <;> simp [EntityType.valueType, EntityType.name]

theorem ownerStamp?_fits_iff : (∀ s, ownerStamp? tb = some s → s.Fits) ↔ OwnerFits tb := by
  constructor
  · intro h hscoped c hc
    have hstamp : ownerStamp? tb =
        some ⟨c, .method (.ident "d") "userIDGetter" [], .named "uint64"⟩ := by
      rw [ownerStamp?, if_pos hscoped, hc]
      rfl
    exact valueType_eq_uint64_iff.mp (h _ hstamp)
  · intro h s hs
    obtain ⟨hscoped, hc, _, htype⟩ := ownerStamp?_eq_some hs
    rw [Stamp.Fits, htype, valueType_eq_uint64_iff]
    exact h hscoped _ hc

/-- Every value but the owner is sure to have the type of its column. -/
theorem fits_iff : (∀ s ∈ stamps tb key, s.Fits) ↔ OwnerFits tb := by
  have htime : ∀ column, ∀ s ∈ (timeStamp? tb column).toList, s.Fits := by
    intro column s hs
    obtain ⟨_, htime, _, htype⟩ := timeStamp?_eq_some (Option.mem_toList.mp hs)
    rw [Stamp.Fits, htype, valueType_eq_timestampType_iff.mpr htime]
  have hkey : ∀ s ∈ (keyStamp? key).toList, s.Fits := by
    intro s hs
    obtain ⟨hinteger, rfl⟩ := keyStamp?_eq_some (Option.mem_toList.mp hs)
    exact (valueType_of_isInteger hinteger).1.symm
  rw [← ownerStamp?_fits_iff]
  simp only [stamps, List.mem_append, Option.mem_toList] at htime hkey ⊢
  grind

/-! ## What is stored -/

/-- The function that saves. -/
def saver (d : Dao) (t : Target) : Function :=
  ⟨some d.receiver, d.entitySignature t "Save", d.saveBody t⟩

/-- The variables once there is a transaction, with the present time if it is taken. -/
def begunScope (d : Dao) (t : Target) : Scope :=
  (if d.setsCreatedAt || d.setsUpdatedAt then
    [[("now", .result (.call (.qualified timePath "Now") []) 0)]] else []) ++
  [[("tx", .result (.method (.ident "d") "txGetter" []) 0),
      ("err", .result (.method (.ident "d") "txGetter" []) 1)],
    [("d", .typed (.pointer (.named d.implName))), ("e", .typed (.pointer (d.entityType t)))]]

/-- The variables once a row is inserted. -/
def insertedScope (d : Dao) (t : Target) : Scope :=
  let create : Expr :=
    .method (.ident "tx") "CreateByTable" [.field (.ident "d") "tableName", .ident "e"]
  [("id", .result create 0), ("err", .result create 1)] :: d.begunScope t

def timeAssignment (d : Dao) (t : Target) (column : String) : Assignment :=
  ⟨d.begunScope t, .field (.ident "e") (Names.field column), .addr (.ident "now")⟩

def ownerAssignment (d : Dao) (t : Target) : Assignment :=
  ⟨d.begunScope t, .field (.ident "e") (Names.field userIdColumn),
    .method (.ident "d") "userIDGetter" []⟩

def keyAssignment (d : Dao) (t : Target) : Assignment :=
  ⟨d.insertedScope t, d.keyField, .call (.ident d.primaryKey.entityType.name) [.ident "id"]⟩

/-- Takes the present time, if it is stored at all. -/
def clock (d : Dao) : List Stmt :=
  if d.setsCreatedAt || d.setsUpdatedAt then
    [.define ["now"] (.call (.qualified timePath "Now") [])]
  else []

theorem beforeTest_eq : d.beforeTest t =
    (takeTransaction t [] ++ d.clock) ++ (if d.setsUpdatedAt then [stamp updatedAtColumn] else []) :=
  rfl

theorem foldl_after_clock :
    (takeTransaction t [] ++ d.clock).foldl Scope.after (d.saver t).scope = d.begunScope t := by
  unfold begunScope clock
  cases (d.setsCreatedAt || d.setsUpdatedAt) <;> rfl

theorem foldl_after_beforeTest :
    (d.beforeTest t).foldl Scope.after (d.saver t).scope = d.begunScope t := by
  rw [beforeTest_eq, List.foldl_append, foldl_after_stamp, foldl_after_clock]

theorem assignments_clock (scope : Scope) :
    Stmt.assignmentsOf scope (takeTransaction t [] ++ d.clock) = [] := by
  unfold clock
  cases (d.setsCreatedAt || d.setsUpdatedAt) <;> simp [takeTransaction]

theorem assignments_stamp (stamps : Bool) :
    Stmt.assignmentsOf (d.begunScope t) (if stamps then [stamp column] else []) =
      if stamps then [d.timeAssignment t column] else [] := by
  cases stamps <;> simp [stamp, timeAssignment]

theorem assignments_beforeTest :
    Stmt.assignmentsOf (d.saver t).scope (d.beforeTest t) =
      if d.setsUpdatedAt then [d.timeAssignment t updatedAtColumn] else [] := by
  rw [beforeTest_eq, Stmt.assignmentsOf_append, assignments_clock, foldl_after_clock,
    assignments_stamp, List.nil_append]

theorem assignments_insertBody :
    Stmt.assignmentsOf (d.begunScope t) (d.insertBody t) =
      (if d.setsUserId then [d.ownerAssignment t] else []) ++
        (if d.setsCreatedAt then [d.timeAssignment t createdAtColumn] else []) ++
        (if d.primaryKey.entityType.isInteger then [d.keyAssignment t] else []) := by
  unfold insertBody
  cases d.setsUserId <;> cases d.setsCreatedAt <;> cases d.primaryKey.entityType.isInteger <;>
    simp [keyField, stamp, ownerAssignment, timeAssignment, keyAssignment, insertedScope]

theorem assignments_updateBody (scope : Scope) :
    Stmt.assignmentsOf scope (d.updateBody t) = [] := by
  simp [updateBody, keyQuery, keyField, updateMap, List.flatMap_map]

theorem assignments_saver :
    (d.saver t).assignments =
      (if d.setsUpdatedAt then [d.timeAssignment t updatedAtColumn] else []) ++
        ((if d.setsUserId then [d.ownerAssignment t] else []) ++
          (if d.setsCreatedAt then [d.timeAssignment t createdAtColumn] else []) ++
          (if d.primaryKey.entityType.isInteger then [d.keyAssignment t] else [])) := by
  have htest : d.isUnsaved.assignments (d.begunScope t) = [] := by simp [isUnsaved, keyField]
  show Stmt.assignmentsOf (d.saver t).scope (d.saveBody t) = _
  unfold saveBody
  rw [Stmt.assignmentsOf_append, assignments_beforeTest, foldl_after_beforeTest,
    Stmt.assignmentsOf_cons, Scope.after_when, assignments_updateBody, List.append_nil,
    Stmt.assignments, Stmt.assignmentsOfInit, Scope.afterInit_none, htest, assignments_insertBody]
  rfl

/-! ## Types -/

section Types

/-- The field of a record for a column. -/
def recordField (tb : Table) (c : Column) : Field :=
  ⟨some (Names.field c.name), c.entityType.valueType,
    (Entity.field tb.convention.isReadOnly c).serialName.toList.map fun s => (Entity.serialTag, s)⟩

theorem structItem_ofTable :
    (Entity.ofTable tb).structItem =
      .struct (Names.entity tb.name) (tb.columns.map (recordField tb)) := by
  show Item.struct (Names.entity tb.name) _ = _
  congr 1
  exact List.map_map ..

/-- The record of an entity, seen from the data access. -/
theorem isStruct_entityType_iff (hof : IsOf tb key d) {fields : List Field} :
    (d.visible (.ofTable tb) t).IsStruct (d.entityType t) fields ↔
      fields = tb.columns.map (recordField tb) := by
  constructor
  · intro h
    cases h with
    | entity h =>
      have hitem := (Entity.ofTable tb).eq_structItem_of_mem_items t h
      rw [structItem_ofTable] at hitem
      exact (Item.struct.inj hitem).2
  · rintro rfl
    refine .entity (w := d.visible (.ofTable tb) t) ?_
    rw [hof.name, ← structItem_ofTable]
    exact (Entity.ofTable tb).structItem_mem_items t

theorem fieldOf_eq (c : Column) : fieldOf c = .field (.ident "e") (Names.field c.name) := by
  rw [fieldOf, Entity.field]

variable {scope below : Scope}

theorem gives_fieldOf (hof : IsOf tb key d) (hc : c ∈ tb.columns)
    (he : scope.find? "e" = some (.typed (.pointer (d.entityType t)), below)) :
    (d.visible (.ofTable tb) t).Gives scope (fieldOf c) [c.entityType.valueType] := by
  have hreaches : (d.visible (.ofTable tb) t).ReachesField (d.entityType t) (Names.field c.name)
      (d.entityType t) (recordField tb c).type :=
    Visible.reachesField_self ((isStruct_entityType_iff hof).mpr rfl) (List.mem_map_of_mem hc) rfl
  rw [fieldOf_eq]
  exact .field (.declared he) hreaches

/-- If the record has distinct fields, it is known which of them is meant. -/
theorem givesOnly_fieldOf (hof : IsOf tb key d) (hc : c ∈ tb.columns)
    (hdistinct : (tb.columns.map fun c => Names.field c.name).Nodup)
    (he : scope.find? "e" = some (.typed (.pointer (d.entityType t)), below)) :
    (d.visible (.ofTable tb) t).GivesOnly scope (fieldOf c) c.entityType.valueType := by
  have hfield : recordField tb c ∈ tb.columns.map (recordField tb) := List.mem_map_of_mem hc
  rw [fieldOf_eq]
  refine Visible.givesOnly_field he ((isStruct_entityType_iff hof).mpr rfl) hfield rfl ?_
  intro others hothers g hg hname
  obtain rfl := (isStruct_entityType_iff hof).mp hothers
  obtain ⟨other, hother, rfl⟩ := List.mem_map.mp hg
  have hsame : Names.field other.name = Names.field c.name := Option.some.inj hname
  rw [List.inj_on_of_nodup_map hdistinct hother hc hsame]

theorem name_mem_of_mem_entityItems {e : Entity} {fn : Function} (h : .func fn ∈ e.items t) :
    fn.signature.name ∈ ["EncodeRapidash", "DecodeRapidash", "Struct"] := by
  simp only [Entity.items, List.mem_append, List.mem_ite_nil_left, List.mem_cons,
    List.not_mem_nil, or_false] at h
  rcases h with ((h | h) | ⟨_, h | h⟩) | h | h | h <;> cases h <;>
    simp [Entity.encodeSignature, Entity.decodeSignature]

theorem givesOnly_now (hdefined : (d.setsCreatedAt || d.setsUpdatedAt) = true) (w : Visible) :
    w.GivesOnly (d.begunScope t) (.addr (.ident "now")) timestampType := by
  have hfind : (d.begunScope t).find? "now" =
      some (.result (.call (.qualified timePath "Now") []) 0,
        [[("tx", .result (.method (.ident "d") "txGetter" []) 0),
            ("err", .result (.method (.ident "d") "txGetter" []) 1)],
          [("d", .typed (.pointer (.named d.implName))),
            ("e", .typed (.pointer (d.entityType t)))]]) := by
    rw [begunScope, if_pos hdefined]
    rfl
  exact (Visible.givesOnly_now.ident hfind).addr

/-- The current user is known where the owner is stored. -/
theorem givesOnly_owner (h : ofTable tb = .ok d) (hgetter : d.hasUserIdGetter = true) :
    (d.visible (.ofTable tb) t).GivesOnly (d.begunScope t) (.method (.ident "d") "userIDGetter" [])
      (.named "uint64") := by
  have hfind : (d.begunScope t).find? "d" = some (.typed (.pointer (.named d.implName)), []) := by
    unfold begunScope
    cases (d.setsCreatedAt || d.setsUpdatedAt) <;> rfl
  have hstruct : (d.visible (.ofTable tb) t).IsStruct (.named d.implName) (d.implFields t) := by
    refine .own (List.mem_append_left _ (List.mem_append_left _ ?_))
    exact List.mem_cons_of_mem _ List.mem_cons_self
  have hfield : .plain "userIDGetter" userIdGetterType ∈ d.implFields t := by
    simp [implFields, hgetter]
  have hgetters : ∀ g ∈ d.implFields t, g.selector? = some "userIDGetter" →
      g.type = userIdGetterType := by
    simp [implFields, hgetter, Field.plain, Field.selector?]
  have honly : ∀ others, (d.visible (.ofTable tb) t).IsStruct (.named d.implName) others →
      ∀ g ∈ others, g.selector? = some "userIDGetter" → g.type = userIdGetterType := by
    intro others hothers g hg hname
    cases hothers with
    | own hothers =>
      obtain rfl := struct_mem_items hothers
      exact hgetters g hg hname
  refine Visible.GivesOnly.apply (Visible.givesOnly_field hfind hstruct hfield rfl honly) ?_
  intro owner fn hfn hname
  rcases List.mem_append.mp hfn.mem with hown | hentity
  · have hhead := head?_mem_of_mem_items t h hown
    rw [hname] at hhead
    exact absurd hhead (by decide)
  · have hother := name_mem_of_mem_entityItems hentity
    rw [hname] at hother
    exact absurd hother (by decide)

theorem givesOnly_key (h : ofTable tb = .ok d) (hinteger : key.entityType.isInteger = true) :
    (d.visible (.ofTable tb) t).GivesOnly (d.insertedScope t)
      (.call (.ident key.entityType.name) [.ident "id"]) (.named key.entityType.name) := by
  have hnumber := (valueType_of_isInteger hinteger).2
  have hfind : (d.insertedScope t).find? key.entityType.name = none := by
    have hapart : ∀ name ∈ numberTypes, name ∉ ["id", "err", "now", "tx", "d", "e"] := by
      decide
    have hsub : ∀ name ∈ (d.insertedScope t).flatten.map Prod.fst,
        name ∈ ["id", "err", "now", "tx", "d", "e"] := by
      unfold insertedScope begunScope
      cases (d.setsCreatedAt || d.setsUpdatedAt) <;> simp
    exact Scope.find?_eq_none fun hmem => hapart _ hnumber (hsub _ hmem)
  refine Visible.givesOnly_converted hnumber hfind fun fn hfn hname => ?_
  have hhead := head?_mem_of_mem_items t h hfn
  have hsmall : ∀ name ∈ numberTypes,
      name.toList.head? ∉ [some 'N', some 'F', some 'S', some 'D'] := by decide
  exact hsmall _ hnumber (hname ▸ hhead)

end Types

/-! ## Saving -/

theorem isSome_timeStamp? : (timeStamp? tb column).isSome = hasTimestamp tb column := by
  unfold timeStamp? hasTimestamp
  cases tb.column? column with
  | none => rfl
  | some c => cases hc : c.entityType == .timestamp <;> simp [Option.filter, hc]

theorem isSome_ownerStamp? :
    (ownerStamp? tb).isSome = (tb.convention.isUserScoped && tb.hasColumn userIdColumn) := by
  unfold ownerStamp? Table.hasColumn
  cases tb.convention.isUserScoped <;> simp

theorem isSome_keyStamp? : (keyStamp? key).isSome = key.entityType.isInteger := by
  unfold keyStamp?
  cases key.entityType.isInteger <;> rfl

theorem forall₂_ite_toList {α β : Type} {R : α → β → Prop} {present : Bool} {a : α}
    {o : Option β} (hpresent : present = o.isSome) (h : ∀ b, o = some b → R a b) :
    List.Forall₂ R (if present then [a] else []) o.toList := by
  subst hpresent
  cases o with
  | none => exact .nil
  | some b => exact .cons (h b rfl) .nil

theorem find?_begunScope :
    (d.begunScope t).find? "e" = some (.typed (.pointer (d.entityType t)), []) := by
  unfold begunScope
  cases (d.setsCreatedAt || d.setsUpdatedAt) <;> rfl

/-- What is stored in the field of a column. -/
theorem isStamp_of_stored (hof : IsOf tb key d) {scope below : Scope}
    (hdeclared : s.column ∈ tb.columns)
    (he : scope.find? "e" = some (.typed (.pointer (d.entityType t)), below))
    (hstored : (d.visible (.ofTable tb) t).GivesOnly scope s.value s.type) :
    IsStamp (d.visible (.ofTable tb) t) tb ⟨scope, fieldOf s.column, s.value⟩ s :=
  ⟨hdeclared, rfl, rfl, gives_fieldOf hof hdeclared he,
    fun hdistinct => givesOnly_fieldOf hof hdeclared hdistinct he, hstored⟩

theorem isStamp_time (hof : IsOf tb key d) (htaken : (d.setsCreatedAt || d.setsUpdatedAt) = true)
    (hs : timeStamp? tb column = some s) :
    IsStamp (d.visible (.ofTable tb) t) tb (d.timeAssignment t column) s := by
  obtain ⟨hfind, _, hvalue, htype⟩ := timeStamp?_eq_some hs
  have hname : s.column.name = column := by simpa using List.find?_some hfind
  have htarget : .field (.ident "e") (Names.field column) = fieldOf s.column := by
    rw [fieldOf_eq, hname]
  rw [timeAssignment, htarget, ← hvalue]
  refine isStamp_of_stored hof (List.mem_of_find?_eq_some hfind) find?_begunScope ?_
  rw [hvalue, htype]
  exact givesOnly_now htaken _

theorem isStamp_owner (h : ofTable tb = .ok d) (hof : IsOf tb key d)
    (hs : ownerStamp? tb = some s) :
    IsStamp (d.visible (.ofTable tb) t) tb (d.ownerAssignment t) s := by
  obtain ⟨hscoped, hfind, hvalue, htype⟩ := ownerStamp?_eq_some hs
  have hname : s.column.name = userIdColumn := by simpa using List.find?_some hfind
  have htarget : .field (.ident "e") (Names.field userIdColumn) = fieldOf s.column := by
    rw [fieldOf_eq, hname]
  have hgetter : d.hasUserIdGetter = true := by rw [hof.hasUserIdGetter, hscoped, Bool.true_or]
  rw [ownerAssignment, htarget, ← hvalue]
  refine isStamp_of_stored hof (List.mem_of_find?_eq_some hfind) find?_begunScope ?_
  rw [hvalue, htype]
  exact givesOnly_owner h hgetter

theorem isStamp_key (h : ofTable tb = .ok d) (hof : IsOf tb key d) (hs : keyStamp? key = some s) :
    IsStamp (d.visible (.ofTable tb) t) tb (d.keyAssignment t) s := by
  obtain ⟨hinteger, rfl⟩ := keyStamp?_eq_some hs
  have hkey : key ∈ tb.columns := List.mem_of_find?_eq_some hof.identifier
  have he : (d.insertedScope t).find? "e" = some (.typed (.pointer (d.entityType t)), []) := by
    rw [← find?_begunScope]
    rfl
  have hconverted : Expr.call (.ident d.primaryKey.entityType.name) [.ident "id"] =
      .call (.ident key.entityType.name) [.ident "id"] := by rw [hof.primaryKey]; rfl
  rw [keyAssignment, keyField_eq hof, hconverted]
  exact isStamp_of_stored (s := ⟨key, .call (.ident key.entityType.name) [.ident "id"],
    .named key.entityType.name⟩) hof hkey he (givesOnly_key h hinteger)

/-- The assignments of saving are the stamps. -/
theorem forall₂_isStamp (h : ofTable tb = .ok d) (hof : IsOf tb key d) (t : Target) :
    List.Forall₂ (IsStamp (d.visible (.ofTable tb) t) tb) (d.saver t).assignments
      (stamps tb key) := by
  have hupdated : d.setsUpdatedAt = (timeStamp? tb updatedAtColumn).isSome := by
    rw [hof.setsUpdatedAt, isSome_timeStamp?]
  have howner : d.setsUserId = (ownerStamp? tb).isSome := by
    rw [hof.setsUserId, isSome_ownerStamp?]
  have hcreated : d.setsCreatedAt = (timeStamp? tb createdAtColumn).isSome := by
    rw [hof.setsCreatedAt, isSome_timeStamp?]
  have hkey : d.primaryKey.entityType.isInteger = (keyStamp? key).isSome := by
    rw [hof.primaryKey, isSome_keyStamp?]
    rfl
  rw [assignments_saver, stamps, List.append_assoc, List.append_assoc, List.append_assoc]
  refine List.rel_append (forall₂_ite_toList hupdated fun s hs => isStamp_time hof ?_ hs)
    (List.rel_append (forall₂_ite_toList howner fun s hs => isStamp_owner h hof hs)
      (List.rel_append (forall₂_ite_toList hcreated fun s hs => isStamp_time hof ?_ hs)
        (forall₂_ite_toList hkey fun s hs => isStamp_key h hof hs)))
  -- The present time is taken if one of the two is stored.
  · rw [hupdated, hs, Option.isSome_some, Bool.or_true]
  · rw [hcreated, hs, Option.isSome_some, Bool.true_or]

theorem forall_mem_iff_of_forall₂ {α β : Type} {R : α → β → Prop} {p : α → Prop} {q : β → Prop}
    {as : List α} {bs : List β} (h : List.Forall₂ R as bs) (hR : ∀ a b, R a b → (p a ↔ q b)) :
    (∀ a ∈ as, p a) ↔ ∀ b ∈ bs, q b := by
  induction h with
  | nil => simp
  | cons hab _ ih => simp only [List.forall_mem_cons, hR _ _ hab, ih]

/-- If the record has distinct fields, all that is stored has the types of the fields exactly if the
owner has. -/
theorem typed_saver_iff (h : ofTable tb = .ok d) (hof : IsOf tb key d)
    (hdistinct : (tb.columns.map fun c => Names.field c.name).Nodup) :
    (∀ a ∈ (d.saver t).assignments, (d.visible (.ofTable tb) t).Typed a) ↔ OwnerFits tb := by
  have hfits : (∀ a ∈ (d.saver t).assignments, (d.visible (.ofTable tb) t).Typed a) ↔
      ∀ s ∈ stamps tb key, s.Fits :=
    forall_mem_iff_of_forall₂ (forall₂_isStamp h hof t) fun a s hs =>
      Visible.typed_iff (hs.only hdistinct) hs.stored
  exact hfits.trans fits_iff

theorem functions_named_save (h : ofTable tb = .ok d) (hw : tb.convention.isReadOnly = false)
    (t : Target) : (d.source t).functions.filter (·.signature.name = "Save") = [d.saver t] := by
  obtain ⟨key, hof⟩ := exists_isOf h
  have hmutable : d.isReadOnly = false := by rw [isReadOnly, hof.convention, hw]
  have hitem : d.saveItem t ∈ d.items t := by
    refine List.mem_append_left _ (List.mem_append_right _ ?_)
    simp [hmutable]
  rw [saveItem_eq] at hitem
  exact functions_named t h (SourceFile.mem_functions.mpr hitem)

end Dao

namespace Declaration

open Sql

/-- Saving an entity of an accepted table that is not just read stores the listed values, one after
the other and nothing else, each in the field of its column. All of them have the types of their
columns exactly if the owner has, and then every assignment is typed. -/
theorem ofCreate_stamps {create : CreateTable} {tb : Table} (hk : KeysListColumns create)
    (h : Table.ofCreate create = .ok tb) (hw : tb.convention.isReadOnly = false) (t : Target) :
    ∃ d key fn, Dao.ofTable tb = .ok d ∧ tb.primaryKeyColumn? = some key ∧
      (d.source t).functions.filter (·.signature.name = "Save") = [fn] ∧
      List.Forall₂ (Dao.IsStamp (d.visible (.ofTable tb) t) tb) fn.assignments
        (Dao.stamps tb key) ∧
      ((∀ s ∈ Dao.stamps tb key, s.Fits) ↔ Dao.OwnerFits tb) ∧
      ((tb.columns.map fun c => Names.field c.name).Nodup →
        ((∀ a ∈ fn.assignments, (d.visible (.ofTable tb) t).Typed a) ↔ Dao.OwnerFits tb)) := by
  obtain ⟨_, _, _, ⟨d, hd⟩, _⟩ := ofCreate_valid hk h
  obtain ⟨key, hof⟩ := Dao.exists_isOf hd
  exact ⟨d, key, d.saver t, hd, hof.identifier, Dao.functions_named_save hd hw t,
    Dao.forall₂_isStamp hd hof t, Dao.fits_iff, Dao.typed_saver_iff hd hof⟩

/-- Friends of a user, with the times at which they were added and last changed. -/
def friends : CreateTable :=
  { name := [⟨"user_friends", none⟩]
    columns := [
      ⟨⟨"id", none⟩, .integer "BIGINT" none true, [.notNull, .autoIncrement]⟩,
      ⟨⟨"user_id", none⟩, .integer "BIGINT" none true, [.notNull]⟩,
      ⟨⟨"other_user_id", none⟩, .integer "BIGINT" none true, [.notNull]⟩,
      ⟨⟨"created_at", none⟩, .sized "DATETIME" none "", []⟩,
      ⟨⟨"updated_at", none⟩, .sized "DATETIME" none "", []⟩]
    constraints := [
      .primaryKey [⟨"id", none⟩],
      .unique none (some ⟨"pair", none⟩) [⟨"user_id", none⟩, ⟨"other_user_id", none⟩]] }

theorem ofCreate_friends : Table.ofCreate friends = .ok Dao.friends :=
  Checks.eq_ok_of_toOption (by decide +kernel)

/-- All four are stored, and the owner has the type of the current user. -/
theorem friends_stamps :
    KeysListColumns friends ∧ Table.ofCreate friends = .ok Dao.friends ∧
      Dao.friends.convention.isReadOnly = false ∧
      ∃ d key fn, Dao.ofTable Dao.friends = .ok d ∧ Dao.friends.primaryKeyColumn? = some key ∧
        (d.source (.ofModule "example")).functions.filter (·.signature.name = "Save") = [fn] ∧
        (Dao.stamps Dao.friends key).map (fun s => (s.column.name, s.type)) =
          [("updated_at", timestampType), ("user_id", .named "uint64"),
            ("created_at", timestampType), ("id", .named "uint64")] ∧
        fn.assignments.length = 4 ∧
        ∀ a ∈ fn.assignments, (d.visible (.ofTable Dao.friends) (.ofModule "example")).Typed a := by
  have hk : KeysListColumns friends := by
    simp [KeysListColumns, friends, ListsColumns]
  have hw : Dao.friends.convention.isReadOnly = false := by decide +kernel
  obtain ⟨d, key, fn, hd, hkey, hfn, hstamps, _, htyped⟩ :=
    ofCreate_stamps hk ofCreate_friends hw (.ofModule "example")
  have hdistinct : (Dao.friends.columns.map fun c => Names.field c.name).Nodup := by
    decide +kernel
  have howner : Dao.OwnerFits Dao.friends := by
    intro _ c hc
    obtain rfl := Option.some.inj hc
    rfl
  have hlist : (Dao.stamps Dao.friends key).map (fun s => (s.column.name, s.type)) =
      [("updated_at", timestampType), ("user_id", .named "uint64"),
        ("created_at", timestampType), ("id", .named "uint64")] := by
    obtain rfl := Option.some.inj hkey
    rfl
  have hlength : fn.assignments.length = 4 := by
    rw [hstamps.length_eq, ← List.length_map, hlist]
    rfl
  exact ⟨hk, ofCreate_friends, hw, d, key, fn, hd, hkey, hfn, hlist, hlength,
    (htyped hdistinct).mpr howner⟩

/-- Items whose owner is held as a number of another kind. -/
def intOwnedItems : CreateTable :=
  { name := [⟨"user_items", none⟩]
    columns := [
      ⟨⟨"id", none⟩, .integer "INT" none false, [.notNull]⟩,
      ⟨⟨"user_id", none⟩, .integer "INT" none false, []⟩]
    constraints := [.primaryKey [⟨"id", none⟩]] }

def intOwnedItemsTable : Table :=
  { name := "user_items"
    columns := [
      ⟨"id", "int", .int32, 0, false, false, true, none, true, [], []⟩,
      ⟨"user_id", "int", .int32, 0, false, false, false, none, false, [], []⟩]
    indexes := [⟨"PRIMARY", true, true, ["id"]⟩]
    isReadOnly := false }

/-- The current user, an `uint64`, is stored in a field that is an `int32`. -/
theorem intOwnedItems_mistypesOwner :
    Table.ofCreate intOwnedItems = .ok intOwnedItemsTable ∧
      intOwnedItemsTable.convention.isReadOnly = false ∧
      ∃ d fn, Dao.ofTable intOwnedItemsTable = .ok d ∧
        (d.source (.ofModule "example")).functions.filter (·.signature.name = "Save") = [fn] ∧
        ∃ w, w = d.visible (.ofTable intOwnedItemsTable) (.ofModule "example") ∧
          ∃ a ∈ fn.assignments, a.target = .field (.ident "e") (Names.field userIdColumn) ∧
            w.GivesOnly a.scope a.target (.named "int32") ∧
            w.GivesOnly a.scope a.value (.named "uint64") := by
  have hw : intOwnedItemsTable.convention.isReadOnly = false := by decide +kernel
  have hdistinct : (intOwnedItemsTable.columns.map fun c => Names.field c.name).Nodup := by
    decide +kernel
  obtain ⟨d, hd⟩ : ∃ d, Dao.ofTable intOwnedItemsTable = .ok d := ⟨_, rfl⟩
  obtain ⟨key, hof⟩ := Dao.exists_isOf hd
  have hset : d.setsUserId = true := by
    rw [hof.setsUserId]
    decide +kernel
  have hmem : d.ownerAssignment (.ofModule "example") ∈
      (d.saver (.ofModule "example")).assignments := by
    simp [Dao.assignments_saver, hset]
  have hscoped : intOwnedItemsTable.convention.isUserScoped = true := by decide +kernel
  have howner : Dao.ownerStamp? intOwnedItemsTable =
      some ⟨⟨"user_id", "int", .int32, 0, false, false, false, none, false, [], []⟩,
        .method (.ident "d") "userIDGetter" [], .named "uint64"⟩ := by
    rw [Dao.ownerStamp?, if_pos hscoped]
    rfl
  have hstamp := Dao.isStamp_owner (t := .ofModule "example") hd hof howner
  exact ⟨Checks.eq_ok_of_toOption (by decide +kernel), hw, d, d.saver (.ofModule "example"), hd,
    Dao.functions_named_save hd hw _, _, rfl, _, hmem, rfl, hstamp.only hdistinct, hstamp.stored⟩

end Declaration

end Tablewright
