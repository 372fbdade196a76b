import Tablewright.Entity.Basic
import Tablewright.Target

/-! The source file of an entity: its types, its codecs for the caching runtime, and its schema. The
encoder and the decoder use the same method for a column. -/

namespace Tablewright

open Code

namespace EntityType

/-- The method that encodes or decodes such a value. -/
def codec : EntityType → String
  | .string => "String"
  | .bool => "Bool"
  | .int8 => "Int8"
  | .int16 => "Int16"
  | .int32 => "Int32"
  | .int64 => "Int64"
  | .uint8 => "Uint8"
  | .uint16 => "Uint16"
  | .uint32 => "Uint32"
  | .uint64 => "Uint64"
  | .float32 => "Float32"
  | .float64 => "Float64"
  | .timestamp => "TimePtr"
  | .bytes => "Bytes"
  | .strings => "Strings"

/-- The method that declares a column of such values. -/
def schemaMethod : EntityType → String
  | .timestamp => "FieldTime"
  | t => "Field" ++ t.codec

end EntityType

namespace Entity

/-- The key of the tag that carries the serialized name. -/
def serialTag : String := "csv"

def structItem (e : Entity) : Item :=
  .struct e.name (e.fields.map fun f =>
    { name := some f.name
      type := f.entityType.valueType
      tags := f.serialName.toList.map fun s => (serialTag, s) })

def receiver (e : Entity) : Param := ⟨"e", .pointer (.named e.name)⟩

def collectionReceiver (e : Entity) : Param := ⟨"e", .pointer (.named e.collectionName)⟩

def encodeSignature (t : Target) : Signature :=
  ⟨"EncodeRapidash", [⟨"enc", t.rapidashType "Encoder"⟩], [.error]⟩

def decodeSignature (t : Target) : Signature :=
  ⟨"DecodeRapidash", [⟨"dec", t.rapidashType "Decoder"⟩], [.error]⟩

/-- Encodes one field under its column. -/
def putField (f : EntityField) : Stmt :=
  .expr (.method (.ident "enc") f.entityType.codec [.str f.column, .field (.ident "e") f.name])

/-- Decodes one field from its column. -/
def getField (f : EntityField) : Stmt :=
  .assign (.field (.ident "e") f.name)
    (.method (.ident "dec") f.entityType.codec [.str f.column])

/-- The identifier is encoded only once it is assigned, so that an insertion gets one. -/
def putKey (f : EntityField) : Stmt :=
  .when none (.ne (.field (.ident "e") f.name) f.entityType.zeroValue) [putField f]

def encodeItem (e : Entity) (t : Target) : Item :=
  .method e.receiver (encodeSignature t)
    (e.primaryKey?.toList.map putKey ++
      (e.fields.filter (!·.isPrimaryKey)).map putField ++
      [.ret [.method (.ident "enc") "Error" []]])

def encodeCollectionItem (e : Entity) (t : Target) : Item :=
  .method e.collectionReceiver (encodeSignature t) [
    .range none "v" (.deref (.ident "e")) [
      tryCall t (.method (.ident "v") "EncodeRapidash" [.method (.ident "enc") "New" []]) []],
    .ret [.nil]]

def decodeItem (e : Entity) (t : Target) : Item :=
  .method e.receiver (decodeSignature t)
    (e.fields.map getField ++ [.ret [.method (.ident "dec") "Error" []]])

def decodeCollectionItem (e : Entity) (t : Target) : Item :=
  .method e.collectionReceiver (decodeSignature t) [
    .define ["count"] (.method (.ident "dec") "Len" []),
    .assign (.deref (.ident "e"))
      (.call (.ident "make") [.type (.slice (.pointer (.named e.name))), .ident "count"]),
    .count "i" (.int 0) (.ident "count") [
      .declare "v" (.named e.name),
      tryCall t (.method (.ident "v") "DecodeRapidash" [.method (.ident "dec") "At" [.ident "i"]]) [],
      .assign (.index (.paren (.deref (.ident "e"))) (.ident "i")) (.addr (.ident "v"))],
    .ret [.nil]]

/-- Declares one column. -/
def declareField (f : EntityField) : Stmt :=
  .expr (.method (.ident "s") f.entityType.schemaMethod [.str f.column])

def schemaItem (e : Entity) (t : Target) : Item :=
  .method e.receiver ⟨"Struct", [], [.pointer (t.rapidashType "Struct")]⟩
    ([.define ["s"] (.call (.qualified t.rapidashPath "NewStruct") [.str e.tableName])] ++
      e.fields.map declareField ++ [.ret [.ident "s"]])

def hasTimestamp (e : Entity) : Bool := e.fields.any (·.entityType == .timestamp)

def imports (e : Entity) (t : Target) : List String :=
  [t.errorsPath, t.rapidashPath] ++ (if e.hasTimestamp then [timePath] else [])

def items (e : Entity) (t : Target) : List Item :=
  [e.structItem, .typeName e.collectionName (.slice (.pointer (.named e.name)))] ++
    (if e.isReadOnly then [] else [e.encodeItem t, e.encodeCollectionItem t]) ++
    [e.decodeItem t, e.decodeCollectionItem t, e.schemaItem t]

def source (e : Entity) (t : Target) : SourceFile := .ofItems entityPackage (e.imports t) (e.items t)

/-- A function that gives a fresh value for every table of the given entities. -/
def registryItem (name : String) (entities : List Entity) : Item :=
  .free ⟨name, [], [.map (.named "string") (.named "Structable")]⟩ [
    .ret [.map (.named "string") (.named "Structable")
      (entities.map fun e => (.str e.tableName, .call (.ident "new") [.ident e.name]))]]

/-- The registry of all entities, those that are only read apart from the others. -/
def registrySource (entities : List Entity) (t : Target) : SourceFile :=
  .ofItems entityPackage [t.rapidashPath] [
    .interface "Structable" [⟨"Struct", [], [.pointer (t.rapidashType "Struct")]⟩],
    registryItem "Structables" (entities.filter (!·.isReadOnly)),
    registryItem "ReadOnlyStructables" (entities.filter (·.isReadOnly))]

end Entity

end Tablewright
