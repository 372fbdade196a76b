import Tablewright.Entity.Source
import Tablewright.Proofs.Code.Paths
import Tablewright.Proofs.Schema.Validity

/-! The codecs of an entity. Decoder and schema go through the columns in their order. The encoder
takes the primary key out of that order, and writes it only if it is set. That no column is lost or
written twice is due to the parser: at most one column is marked as the primary key. -/

namespace Tablewright

open Code Event

/-- The method of a type that a file declares first under a name. -/
def Code.SourceFile.method? (file : SourceFile) (type name : String) : Option Function :=
  file.functions.find? fun fn => fn.isMethodOf type && fn.signature.name = name

namespace Entity

/-! ## What codecs are to do -/

/-- One value on its way between a field of an entity and a column. -/
structure Transfer where
  /-- The method of the coder. -/
  method : String
  column : String
  field : String
deriving DecidableEq

/-- The value of a column, in the field for the column, by the coder's method for its type. -/
def transfer (c : Column) : Transfer := ⟨c.entityType.codec, c.name, Names.field c.name⟩

namespace Transfer

/-- The field of the entity `e`. -/
def target (x : Transfer) : Expr := .field (.ident "e") x.field

def write (x : Transfer) : Call := ⟨.ident "enc", x.method, [.str x.column, x.target]⟩

def read (x : Transfer) : Call := ⟨.ident "dec", x.method, [.str x.column]⟩

end Transfer

/-- What is read from the decoder into a field of the entity `e`. -/
def read? : Event → Option Transfer
  | .assign (.field (.ident "e") field) (.call (.field (.ident "dec") method) [.str column]) =>
    some ⟨method, column, field⟩
  | _ => none

/-- The call that ends a codec: it asks the coder for the first error. -/
def error (coder : String) : Call := ⟨.ident coder, "Error", []⟩

/-- The declaration of a column. The method is named for the codec, but that for points in time,
which may be absent. -/
def declaration (c : Column) : Call :=
  ⟨.ident "s", if c.entityType = .timestamp then "FieldTime" else "Field" ++ c.entityType.codec,
    [.str c.name]⟩

/-- The columns that are not marked as the primary key. -/
def otherColumns (tb : Table) : List Column := tb.columns.filter (!·.isPrimaryKey)

/-- The test that the field for a column is not the zero of its type. -/
def isSet (c : Column) : Expr := .ne (transfer c).target c.entityType.zeroValue

/-- A body that reads every column, in declaration order. -/
def Decodes (tb : Table) (body : List Stmt) : Prop :=
  (∃ es, Path body es .returns) ∧ ∀ es exit, Path body es exit → exit = .returns ∧
    es.filterMap read? = tb.columns.map transfer ∧
    callsOn "dec" es = tb.columns.map (fun c => (transfer c).read) ++ [error "dec"]

/-- A body that makes a schema, declares every column, in declaration order, and returns it. -/
def DeclaresColumns (tb : Table) (t : Target) (body : List Stmt) : Prop :=
  (∃ es, Path body es .returns) ∧ ∀ es exit, Path body es exit → exit = .returns ∧
    definitionsOf "s" es = [.call (.qualified t.rapidashPath "NewStruct") [.str tb.name]] ∧
    callsOn "s" es = tb.columns.map declaration ∧ .ret [.ident "s"] ∈ es

/-- A body that writes every column: first the primary key, but only if it is found to be set, and
then the others in declaration order. -/
structure Encodes (tb : Table) (body : List Stmt) : Prop where
  set : ∀ es exit, Path body es exit →
    (∀ key ∈ tb.primaryKeyColumn?, .test (isSet key) true ∈ es) → exit = .returns ∧
      callsOn "enc" es = (tb.primaryKeyColumn?.toList ++ otherColumns tb).map
        (fun c => (transfer c).write) ++ [error "enc"]
  unset : ∀ es exit, Path body es exit →
    (∃ key ∈ tb.primaryKeyColumn?, .test (isSet key) true ∉ es) → exit = .returns ∧
      callsOn "enc" es = (otherColumns tb).map (fun c => (transfer c).write) ++ [error "enc"]
  /-- The test comes before the primary key is written. -/
  guarded : ∀ es exit, Path body es exit → ∀ key ∈ tb.primaryKeyColumn?,
    OnlyAfter (.test (isSet key) true) (fun e => (transfer key).write ∈ e.calls) es
  /-- There is a path that finds it set. -/
  full : ∃ es, Path body es .returns ∧ ∀ key ∈ tb.primaryKeyColumn?, .test (isSet key) true ∈ es

variable {tb : Table} {t : Target} {es : List Event} {exit : Exit}

/-! ## The paths of the codecs -/

def decodeBody (e : Entity) : List Stmt :=
  e.fields.map getField ++ [.ret [.method (.ident "dec") "Error" []]]

def schemaBody (e : Entity) (t : Target) : List Stmt :=
  [.define ["s"] (.call (.qualified t.rapidashPath "NewStruct") [.str e.tableName])] ++
    e.fields.map declareField ++ [.ret [.ident "s"]]

def encodeBody (e : Entity) : List Stmt :=
  e.primaryKey?.toList.map putKey ++ (e.fields.filter (!·.isPrimaryKey)).map putField ++
    [.ret [.method (.ident "enc") "Error" []]]

def readEvent (c : Column) : Event :=
  .assign (transfer c).target (.method (.ident "dec") c.entityType.codec [.str c.name])

theorem read?_readEvent (c : Column) : read? (readEvent c) = some (transfer c) := by
  simp only [readEvent, Transfer.target, Expr.method, read?, transfer]

def writeEvent (c : Column) : Event :=
  .eval (.method (.ident "enc") c.entityType.codec [.str c.name, (transfer c).target])

def declareEvent (c : Column) : Event :=
  .eval (.method (.ident "s") c.entityType.schemaMethod [.str c.name])

/-- The event that ends a codec. -/
def errorEvent (coder : String) : Event := .ret [.method (.ident coder) "Error" []]

theorem fields_map_event? {step : EntityField → Stmt} {event : Column → Event}
    (h : ∀ c, (step (field tb.convention.isReadOnly c)).event? = some (event c))
    (cs : List Column) :
    ((cs.map (field tb.convention.isReadOnly)).map step).map Stmt.event? =
      (cs.map event).map some := by
  rw [List.map_map, List.map_map, List.map_map]
  exact List.map_congr_left fun c _ => h c

theorem decodeBody_iff :
    Path (ofTable tb).decodeBody es exit ↔
      es = tb.columns.map readEvent ++ [errorEvent "dec"] ∧ exit = .returns :=
  Path.steps_ret_iff (fields_map_event? (fun _ => rfl) tb.columns)

theorem schemaBody_iff :
    Path ((ofTable tb).schemaBody t) es exit ↔
      es = .define ["s"] (.call (.qualified t.rapidashPath "NewStruct") [.str tb.name]) ::
        tb.columns.map declareEvent ++ [.ret [.ident "s"]] ∧ exit = .returns := by
  have hsteps : ((ofTable tb).fields.map declareField).map Stmt.event? =
      (tb.columns.map declareEvent).map some := fields_map_event? (fun _ => rfl) tb.columns
  refine Path.steps_ret_iff ?_
  rw [List.map_append, hsteps]
  rfl

theorem putKey_iff {c : Column} {isReadOnly : Bool} {rest : List Stmt} :
    Path (putKey (field isReadOnly c) :: rest) es exit ↔
      ∃ es', (es = .test (isSet c) true :: writeEvent c :: es' ∨
        es = .test (isSet c) false :: es') ∧ Path rest es' exit := by
  have hput : ∀ es' exit', Path [putField (field isReadOnly c)] es' exit' ↔
      es' = [writeEvent c] ∧ exit' = .falls := by
    intro es' exit'
    rw [Path.step_iff (show (putField (field isReadOnly c)).event? = some (writeEvent c) from rfl)]
    simp [Path.nil_iff]
  have hcondition : putKey (field isReadOnly c) =
      .when none (isSet c) [putField (field isReadOnly c)] := rfl
  rw [hcondition, Path.when_iff]
  simp only [hput]
  constructor
  · rintro (⟨es', rfl, tail⟩ | ⟨_, es', rfl, ⟨rfl, _⟩, tail⟩ | ⟨_, _, ⟨_, hexit⟩, _⟩)
    · exact ⟨es', .inr rfl, tail⟩
    · exact ⟨es', .inl rfl, tail⟩
    · cases hexit
  · rintro ⟨es', rfl | rfl, tail⟩
    · exact .inr (.inl ⟨_, es', rfl, ⟨rfl, trivial⟩, tail⟩)
    · exact .inl ⟨es', rfl, tail⟩

/-- What is done once the primary key is dealt with: the other columns are written. -/
def otherEvents (tb : Table) : List Event :=
  (otherColumns tb).map writeEvent ++ [errorEvent "enc"]

/-- The paths that write the primary key if they find it set, and then the other columns. -/
def EncodePath (tb : Table) (es : List Event) : Prop :=
  match tb.primaryKeyColumn? with
  | none => es = otherEvents tb
  | some key => es = .test (isSet key) true :: writeEvent key :: otherEvents tb ∨
      es = .test (isSet key) false :: otherEvents tb

theorem encodeBody_iff :
    Path (ofTable tb).encodeBody es exit ↔ EncodePath tb es ∧ exit = .returns := by
  have hfields : (ofTable tb).fields.filter (!·.isPrimaryKey) =
      (otherColumns tb).map (field tb.convention.isReadOnly) := by
    unfold ofTable otherColumns
    rw [List.filter_map]
    rfl
  have hothers : ∀ es', Path (((ofTable tb).fields.filter (!·.isPrimaryKey)).map putField ++
      [.ret [.method (.ident "enc") "Error" []]]) es' exit ↔
        es' = otherEvents tb ∧ exit = .returns := by
    intro es'
    rw [hfields]
    exact Path.steps_ret_iff (fields_map_event? (fun _ => rfl) (otherColumns tb))
  unfold EncodePath encodeBody
  rw [List.append_assoc, primaryKey?_ofTable]
  cases tb.primaryKeyColumn? with
  | none => exact hothers es
  | some key =>
    rw [Option.map_some, Option.toList_some, List.map_singleton, List.singleton_append, putKey_iff]
    simp only [hothers]
    constructor
    · rintro ⟨_, hes, rfl, hexit⟩
      exact ⟨hes, hexit⟩
    · rintro ⟨hes, hexit⟩
      exact ⟨_, hes, rfl, hexit⟩

/-! ## What the codecs do -/

theorem decodes_decodeBody : Decodes tb (ofTable tb).decodeBody := by
  refine ⟨⟨_, decodeBody_iff.mpr ⟨rfl, rfl⟩⟩, ?_⟩
  intro es exit hpath
  obtain ⟨rfl, rfl⟩ := decodeBody_iff.mp hpath
  have hcalls : callsOn "dec" (tb.columns.map readEvent) =
      tb.columns.map fun c => (transfer c).read :=
    callsOn_map (fun _ => by simp [callsOn, readEvent, Transfer.read, Transfer.target, transfer]) _
  refine ⟨rfl, ?_, ?_⟩
  · have hread : tb.columns.filterMap (read? ∘ readEvent) = tb.columns.map transfer := by
      rw [← List.filterMap_eq_map]
      exact List.filterMap_congr fun c _ => read?_readEvent c
    rw [List.filterMap_append, List.filterMap_map, hread]
    exact List.append_nil _
  · rw [callsOn_append, hcalls]
    simp [callsOn, errorEvent, error]

theorem declaresColumns_schemaBody : DeclaresColumns tb t ((ofTable tb).schemaBody t) := by
  refine ⟨⟨_, schemaBody_iff.mpr ⟨rfl, rfl⟩⟩, ?_⟩
  intro es exit hpath
  obtain ⟨rfl, rfl⟩ := schemaBody_iff.mp hpath
  have hcalls : callsOn "s" (tb.columns.map declareEvent) = tb.columns.map declaration := by
    refine callsOn_map (fun c => ?_) _
    have hmethod : c.entityType.schemaMethod =
        if c.entityType = .timestamp then "FieldTime" else "Field" ++ c.entityType.codec := by
      cases c.entityType <;> rfl
    simp [callsOn, declareEvent, declaration, hmethod]
  have hdefinitions : definitionsOf "s" (tb.columns.map declareEvent) = [] := by
    simp [definitionsOf, declareEvent]
  refine ⟨rfl, ?_, ?_, by simp⟩
  · rw [definitionsOf_append, definitionsOf_cons, hdefinitions]
    simp
  · rw [← List.singleton_append, List.append_assoc, callsOn_append, callsOn_append, hcalls]
    simp [callsOn]

theorem callsOn_otherEvents :
    callsOn "enc" (otherEvents tb) =
      (otherColumns tb).map (fun c => (transfer c).write) ++ [error "enc"] := by
  have hcalls : callsOn "enc" ((otherColumns tb).map writeEvent) =
      (otherColumns tb).map fun c => (transfer c).write :=
    callsOn_map (fun _ => by
      simp [callsOn, writeEvent, Transfer.write, Transfer.target, transfer]) _
  unfold otherEvents
  rw [callsOn_append, hcalls]
  simp [callsOn, errorEvent, error]

theorem callsOn_set (key : Column) (es : List Event) :
    callsOn "enc" (.test (isSet key) true :: writeEvent key :: es) =
      (transfer key).write :: callsOn "enc" es := by
  simp [callsOn, isSet, writeEvent, Transfer.write, Transfer.target, transfer, Expr.ne]

theorem callsOn_unset (key : Column) (es : List Event) :
    callsOn "enc" (.test (isSet key) false :: es) = callsOn "enc" es := by
  simp [callsOn, isSet, Transfer.target, Expr.ne]

/-- The names of columns are distinct, so no other column is written as the primary key is. -/
theorem write_notMem_calls {key : Column} (hn : (tb.columns.map (·.name)).Nodup)
    (hkey : tb.primaryKeyColumn? = some key) {e : Event} (he : e ∈ otherEvents tb) :
    (transfer key).write ∉ e.calls := by
  have hmem : key ∈ tb.columns := List.mem_of_find?_eq_some hkey
  have hflag : key.isPrimaryKey = true := by simpa using List.find?_some hkey
  rcases List.mem_append.mp he with he | he
  · obtain ⟨c, hc, rfl⟩ := List.mem_map.mp he
    obtain ⟨hc, hother⟩ := List.mem_filter.mp hc
    have hname : key.name ≠ c.name := by
      intro h
      obtain rfl := List.inj_on_of_nodup_map hn hmem hc h
      simp [hflag] at hother
    simp [writeEvent, Transfer.write, Transfer.target, transfer, hname]
  · obtain rfl := List.mem_singleton.mp he
    simp [errorEvent, Transfer.write]

theorem callsOn_encodePath_set (hes : EncodePath tb es)
    (hset : ∀ key ∈ tb.primaryKeyColumn?, .test (isSet key) true ∈ es) :
    callsOn "enc" es = (tb.primaryKeyColumn?.toList ++ otherColumns tb).map
      (fun c => (transfer c).write) ++ [error "enc"] := by
  unfold EncodePath at hes
  cases hkey : tb.primaryKeyColumn? with
  | none =>
    rw [hkey] at hes
    obtain rfl : es = otherEvents tb := hes
    exact callsOn_otherEvents
  | some key =>
    rw [hkey] at hes hset
    rcases hes with rfl | rfl
    · rw [callsOn_set, callsOn_otherEvents]
      rfl
    · have hmissing : .test (isSet key) true ∉ .test (isSet key) false :: otherEvents tb := by
        simp [otherEvents, writeEvent, errorEvent]
      exact absurd (hset key rfl) hmissing

theorem callsOn_encodePath_unset {key : Column} (hes : EncodePath tb es)
    (hkey : tb.primaryKeyColumn? = some key) (hunset : .test (isSet key) true ∉ es) :
    callsOn "enc" es = (otherColumns tb).map (fun c => (transfer c).write) ++ [error "enc"] := by
  unfold EncodePath at hes
  rw [hkey] at hes
  rcases hes with rfl | rfl
  · exact absurd List.mem_cons_self hunset
  · rw [callsOn_unset, callsOn_otherEvents]

theorem onlyAfter_encodePath {key : Column} (hn : (tb.columns.map (·.name)).Nodup)
    (hes : EncodePath tb es) (hkey : tb.primaryKeyColumn? = some key) :
    OnlyAfter (.test (isSet key) true) (fun e => (transfer key).write ∈ e.calls) es := by
  have htest : ∀ holds, (transfer key).write ∉ (Event.test (isSet key) holds).calls := by
    simp [isSet, Transfer.target, Expr.ne]
  unfold EncodePath at hes
  rw [hkey] at hes
  rcases hes with rfl | rfl
  · exact onlyAfter_guard (htest true)
  · refine onlyAfter_cons (htest false) (onlyAfter_of_forall_not ?_)
    exact fun e he => write_notMem_calls hn hkey he

theorem exists_encodePath_set (tb : Table) :
    ∃ es, EncodePath tb es ∧ ∀ key ∈ tb.primaryKeyColumn?, .test (isSet key) true ∈ es := by
  unfold EncodePath
  cases tb.primaryKeyColumn? with
  | none => exact ⟨_, rfl, by simp⟩
  | some key =>
    refine ⟨_, .inl rfl, ?_⟩
    intro other hother
    obtain rfl := Option.some.inj (Option.mem_def.mp hother)
    exact List.mem_cons_self

theorem encodes_encodeBody (hn : (tb.columns.map (·.name)).Nodup) :
    Encodes tb (ofTable tb).encodeBody := by
  refine ⟨?_, ?_, ?_, ?_⟩
  · intro es exit hpath hset
    obtain ⟨hes, hexit⟩ := encodeBody_iff.mp hpath
    exact ⟨hexit, callsOn_encodePath_set hes hset⟩
  · rintro es exit hpath ⟨key, hkey, hunset⟩
    obtain ⟨hes, hexit⟩ := encodeBody_iff.mp hpath
    exact ⟨hexit, callsOn_encodePath_unset hes hkey hunset⟩
  · intro es exit hpath key hkey
    exact onlyAfter_encodePath hn (encodeBody_iff.mp hpath).1 hkey
  · obtain ⟨es, hes, hset⟩ := exists_encodePath_set tb
    exact ⟨es, encodeBody_iff.mpr ⟨hes, rfl⟩, hset⟩

/-! ## The methods of the file -/

theorem isMethodOf_receiver (e : Entity) (s : Signature) (body : List Stmt) :
    Function.isMethodOf e.name ⟨some e.receiver, s, body⟩ = true := by
  simp [Function.isMethodOf, receiver]

theorem method?_encode {e : Entity} (h : e.isReadOnly = false) :
    (e.source t).method? e.name "EncodeRapidash" =
      some ⟨some e.receiver, encodeSignature t, e.encodeBody⟩ := by
  show ((e.items t).filterMap Item.function?).find? _ = _
  unfold items encodeBody
  simp [h, structItem, encodeItem, Item.method, Item.function?, encodeSignature,
    isMethodOf_receiver]

theorem method?_decode {e : Entity} :
    (e.source t).method? e.name "DecodeRapidash" =
      some ⟨some e.receiver, decodeSignature t, e.decodeBody⟩ := by
  show ((e.items t).filterMap Item.function?).find? _ = _
  unfold items decodeBody
  cases e.isReadOnly <;>
    simp [structItem, encodeItem, encodeCollectionItem, decodeItem, Item.method, Item.function?,
      encodeSignature, decodeSignature, isMethodOf_receiver]

theorem method?_struct {e : Entity} :
    (e.source t).method? e.name "Struct" =
      some ⟨some e.receiver, ⟨"Struct", [], [.pointer (t.rapidashType "Struct")]⟩,
        e.schemaBody t⟩ := by
  show ((e.items t).filterMap Item.function?).find? _ = _
  unfold items schemaBody
  cases e.isReadOnly <;>
    simp [structItem, encodeItem, encodeCollectionItem, decodeItem, decodeCollectionItem,
      schemaItem, Item.method, Item.function?, encodeSignature, decodeSignature,
      isMethodOf_receiver]

/-- The codecs and the schema of a table's entity go through the same columns. -/
structure CodecsAgree (tb : Table) (t : Target) : Prop where
  distinct : (tb.columns.map (·.name)).Nodup
  /-- Setting the primary key apart loses no column and repeats none. -/
  once : (tb.primaryKeyColumn?.toList ++ otherColumns tb).Perm tb.columns
  decode : ∃ fn, ((ofTable tb).source t).method? (ofTable tb).name "DecodeRapidash" = some fn ∧
    fn.receiver = some (ofTable tb).receiver ∧ fn.signature = decodeSignature t ∧
    Decodes tb fn.body
  schema : ∃ fn, ((ofTable tb).source t).method? (ofTable tb).name "Struct" = some fn ∧
    DeclaresColumns tb t fn.body
  encode : tb.convention.isReadOnly = false →
    ∃ fn, ((ofTable tb).source t).method? (ofTable tb).name "EncodeRapidash" = some fn ∧
      fn.receiver = some (ofTable tb).receiver ∧ fn.signature = encodeSignature t ∧
      Encodes tb fn.body

theorem codecsAgree_of_filter (hn : (tb.columns.map (·.name)).Nodup)
    (hflags : tb.columns.filter (·.isPrimaryKey) = tb.primaryKeyColumn?.toList) :
    CodecsAgree tb t := by
  refine ⟨hn, ?_, ⟨_, method?_decode, rfl, rfl, decodes_decodeBody⟩,
    ⟨_, method?_struct, declaresColumns_schemaBody⟩, ?_⟩
  · rw [← hflags]
    exact List.filter_append_perm (·.isPrimaryKey) tb.columns
  · intro hw
    exact ⟨_, method?_encode hw, rfl, rfl, encodes_encodeBody hn⟩

end Entity

namespace Declaration

open Sql

/-- The columns that are marked as the primary key are covered by the same index, which covers one
column at most. -/
theorem filter_isPrimaryKey {create : CreateTable} {tb : Table} (keeps : Keeps create)
    (h : Declares create tb) :
    tb.columns.filter (·.isPrimaryKey) = tb.primaryKeyColumn?.toList := by
  obtain ⟨primary, hprimary, hlength⟩ := keeps.primary
  have hcovered : ∀ c ∈ tb.columns, c.isPrimaryKey = true → c.name ∈ primary.columns := by
    intro c hc hflag
    obtain ⟨i, hi, hp, hname⟩ := (h.isPrimaryKey_iff hc).mp hflag
    have hmem : i ∈ (indexes create).filter (·.isPrimaryKey) :=
      List.mem_filter.mpr ⟨h.indexes ▸ hi, hp⟩
    rw [hprimary] at hmem
    rwa [List.mem_singleton.mp hmem] at hname
  have hsame : ∀ a ∈ primary.columns, ∀ b ∈ primary.columns, a = b := by
    intro a ha b hb
    cases hcolumns : primary.columns with
    | nil => simp [hcolumns] at ha
    | cons name rest =>
      rw [hcolumns, List.length_cons] at hlength
      obtain rfl : rest = [] := List.length_eq_zero_iff.mp (by omega)
      rw [hcolumns] at ha hb
      rw [List.mem_singleton.mp ha, List.mem_singleton.mp hb]
  have hn : (tb.columns.map (·.name)).Nodup := h.columnNames ▸ keeps.distinct
  cases hkey : tb.primaryKeyColumn? with
  | none =>
    have hnone := List.find?_eq_none.mp hkey
    exact List.filter_eq_nil_iff.mpr hnone
  | some key =>
    have hmem : key ∈ tb.columns := List.mem_of_find?_eq_some hkey
    have hflag : key.isPrimaryKey = true := by simpa using List.find?_some hkey
    refine filter_eq_singleton hn hmem ?_
    intro c hc
    constructor
    · intro hc'
      exact hsame _ (hcovered c hc hc') _ (hcovered key hmem hflag)
    · intro hname
      rwa [List.inj_on_of_nodup_map hn hc hmem hname]

end Declaration

namespace Entity

open Declaration Sql

end Entity

end Tablewright
