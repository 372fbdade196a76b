import Tablewright.Description
import Tablewright.Proofs.Checks
import Tablewright.Proofs.Value.Json

/-! Entities, data access and models are read back from their descriptions: a description leaves
nothing out. So what a text describes are things in an order, whatever the text looks like. -/

namespace Tablewright

namespace Value

variable {α : Type}

/-! ## Readers of values -/

def text? : Value → Option String
  | .text s => some s
  | _ => none

def flag? : Value → Option Bool
  | .flag b => some b
  | _ => none

/-- One of some things, by its name. -/
def named? (name : α → String) (all : List α) : Value → Option α
  | .text s => all.find? (name · == s)
  | _ => none

/-- Nothing, or what is read. -/
def optional? (read? : Value → Option α) : Value → Option (Option α)
  | .null => some none
  | v => (read? v).map some

def list? (item? : Value → Option α) : Value → Option (List α)
  | .list items => items.mapM item?
  | _ => none

def field? (read? : Value → Option α) (name : String) : Value → Option α
  | .record fields => (fields.lookup name).bind read?
  | _ => none

def entityType? : Value → Option EntityType := named? EntityType.name EntityType.all

def arity? : Value → Option Arity := named? Arity.name [.single, .collection]

def lookup? : Value → Option Lookup := named? Lookup.name [.eq, .among]

def convention? : Value → Option Convention :=
  named? Convention.name [.readOnly, .mutable, .userScoped]

def sortOrder? : Value → Option SortOrder :=
  named? SortOrder.name [.natural, .chronological, .boolean]

/-! ### What they read -/

@[simp] theorem text?_text (s : String) : text? (.text s) = some s := rfl

@[simp] theorem flag?_flag (b : Bool) : flag? (.flag b) = some b := rfl

@[simp] theorem entityType?_text (t : EntityType) : entityType? (.text t.name) = some t :=
  EntityType.ofName?_name t

@[simp] theorem arity?_text (a : Arity) : arity? (.text a.name) = some a := by
  cases a <;> decide

@[simp] theorem lookup?_text (l : Lookup) : lookup? (.text l.name) = some l := by
  cases l <;> decide

@[simp] theorem convention?_text (c : Convention) : convention? (.text c.name) = some c := by
  cases c <;> decide

@[simp] theorem optional?_text (s : Option String) :
    optional? text? (optionalText s) = some s := by
  cases s <;> rfl

@[simp] theorem optional?_sortOrder (s : Option SortOrder) :
    optional? sortOrder? (optionalText (s.map SortOrder.name)) = some s := by
  cases s with
  | none => rfl
  | some s => cases s <;> decide

theorem list?_map {item? : Value → Option α} {value : α → Value}
    (h : ∀ a, item? (value a) = some a) (as : List α) :
    list? item? (.list (as.map value)) = some as := by
  have hitems : as.mapM (item? ∘ value) = some (as.map id) := Checks.mapM_eq_some fun a _ => h a
  rw [list?, List.mapM_map, hitems, List.map_id]

@[simp] theorem list?_texts (xs : List String) : list? text? (texts xs) = some xs :=
  list?_map text?_text xs

section Fields

variable {name key : String} {fields : List (String × Value)}

@[simp] theorem field?_here (read? : Value → Option α) (v : Value) :
    field? read? name (.record ((name, v) :: fields)) = read? v := by
  rw [field?, List.lookup_cons_self, Option.bind_some]

@[simp] theorem field?_behind (hname : name ≠ key) (read? : Value → Option α) (v : Value) :
    field? read? name (.record ((key, v) :: fields)) = field? read? name (.record fields) := by
  rw [field?, field?, List.lookup_cons, beq_false_of_ne hname]

end Fields

end Value

open Value

/-! ## Readers of descriptions -/

namespace FinderArg

def ofValue? (v : Value) : Option FinderArg := do
  return {
    name := ← v.field? text? "name"
    column := ← v.field? text? "column"
    entityType := ← v.field? entityType? "entity_type"
    isSequence := ← v.field? flag? "is_sequence" }

theorem ofValue?_value (a : FinderArg) : ofValue? a.value = some a := by
  simp [ofValue?, value]

end FinderArg

namespace Finder

def ofValue? (v : Value) : Option Finder := do
  return {
    name := ← v.field? text? "name"
    args := ← v.field? (list? FinderArg.ofValue?) "args"
    arity := ← v.field? arity? "arity"
    lookup := ← v.field? lookup? "lookup"
    columns := ← v.field? (list? text?) "columns" }

theorem ofValue?_value (f : Finder) : ofValue? f.value = some f := by
  simp [ofValue?, value, list?_map FinderArg.ofValue?_value]

end Finder

namespace EntityField

def ofValue? (v : Value) : Option EntityField := do
  return {
    name := ← v.field? text? "name"
    column := ← v.field? text? "column"
    entityType := ← v.field? entityType? "entity_type"
    serialName := ← v.field? (optional? text?) "serial_name"
    isPrimaryKey := ← v.field? flag? "is_primary_key" }

theorem ofValue?_value (f : EntityField) : ofValue? f.value = some f := by
  simp [ofValue?, value]

end EntityField

namespace Entity

def ofValue? (v : Value) : Option Entity := do
  return {
    name := ← v.field? text? "name"
    collectionName := ← v.field? text? "collection_name"
    tableName := ← v.field? text? "table_name"
    isReadOnly := ← v.field? flag? "is_read_only"
    fields := ← v.field? (list? EntityField.ofValue?) "fields" }

theorem ofValue?_value (e : Entity) : ofValue? e.value = some e := by
  simp [ofValue?, value, list?_map EntityField.ofValue?_value]

end Entity

namespace DaoField

def ofValue? (v : Value) : Option DaoField := do
  return {
    name := ← v.field? text? "name"
    column := ← v.field? text? "column"
    entityType := ← v.field? entityType? "entity_type" }

theorem ofValue?_value (f : DaoField) : ofValue? f.value = some f := by
  simp [ofValue?, value]

end DaoField

namespace Dao

def ofValue? (v : Value) : Option Dao := do
  return {
    name := ← v.field? text? "name"
    collectionName := ← v.field? text? "collection_name"
    tableName := ← v.field? text? "table_name"
    convention := ← v.field? convention? "convention"
    primaryKey := ← v.field? DaoField.ofValue? "primary_key"
    updateFields := ← v.field? (list? DaoField.ofValue?) "update_fields"
    setsCreatedAt := ← v.field? flag? "sets_created_at"
    setsUpdatedAt := ← v.field? flag? "sets_updated_at"
    setsUserId := ← v.field? flag? "sets_user_id"
    hasUserIdGetter := ← v.field? flag? "has_user_id_getter"
    methods := ← v.field? (list? Finder.ofValue?) "methods" }

theorem ofValue?_value (d : Dao) : ofValue? d.value = some d := by
  simp [ofValue?, value, DaoField.ofValue?_value,
    list?_map DaoField.ofValue?_value, list?_map Finder.ofValue?_value]

end Dao

namespace ModelColumn

def ofValue? (v : Value) : Option ModelColumn := do
  return {
    column := ← v.field? text? "column"
    field := ← v.field? text? "field"
    pluralField := ← v.field? text? "plural_field"
    entityType := ← v.field? entityType? "entity_type"
    filterable := ← v.field? flag? "filterable"
    sort := ← v.field? (optional? sortOrder?) "sort" }

theorem ofValue?_value (c : ModelColumn) : ofValue? c.value = some c := by
  simp [ofValue?, value]

end ModelColumn

namespace Model

def ofValue? (v : Value) : Option Model := do
  return {
    name := ← v.field? text? "name"
    collectionName := ← v.field? text? "collection_name"
    daoField := ← v.field? text? "dao_field"
    isReadOnly := ← v.field? flag? "is_read_only"
    primaryKey := ← v.field? ModelColumn.ofValue? "primary_key"
    columns := ← v.field? (list? ModelColumn.ofValue?) "columns"
    finders := ← v.field? (list? Finder.ofValue?) "finders" }

theorem ofValue?_value (m : Model) : ofValue? m.value = some m := by
  simp [ofValue?, value, ModelColumn.ofValue?_value,
    list?_map ModelColumn.ofValue?_value, list?_map Finder.ofValue?_value]

end Model

end Tablewright
