import Tablewright.Proofs.Schema.Validity
import Tablewright.Proofs.Sql.Identifier

/-! Keys in the options of columns, and keys in constraints. A key that is declared with its column
is the constraint of that one column, written before all other constraints. -/

namespace Tablewright.Declaration

open Sql

/-- The constraint that says the same as an option of the column, if the option is a key. -/
def keyConstraint? (column : Identifier) : ColumnOption → Option TableConstraint
  | .primaryKey => some (.primaryKey [column])
  | .unique => some (.unique none none [column])
  | _ => none

def isKey : ColumnOption → Bool
  | .primaryKey | .unique => true
  | _ => false

/-- The constraints for the keys of a column, in the order of its options. -/
def keyConstraints (d : ColumnDefinition) : List TableConstraint :=
  d.options.filterMap (keyConstraint? d.name)

/-- The column without its keys. -/
def withoutKeys (d : ColumnDefinition) : ColumnDefinition :=
  { d with options := d.options.filter (!isKey ·) }

/-- The statement with the keys of its columns written as constraints. -/
def listKeys (create : CreateTable) : CreateTable :=
  { create with
    columns := create.columns.map withoutKeys
    constraints := create.columns.flatMap keyConstraints ++ create.constraints }

variable {create : CreateTable}

/-! ## Indexes -/

theorem inlineIndex?_of_not_isKey {option : ColumnOption} (h : isKey option = false)
    (column : String) : inlineIndex? column option = none := by
  cases option with
  | primaryKey | unique => cases h
  | _ => rfl

/-- The constraint declares the index of the option. -/
theorem constraintIndex?_keyConstraint? {id : Identifier} (h : id.IsSimple)
    (option : ColumnOption) :
    (keyConstraint? id option).bind constraintIndex? = inlineIndex? id.text option := by
  have hcolumn := indexColumn_of_isSimple h
  cases option with
  | primaryKey | unique => simp [keyConstraint?, constraintIndex?, inlineIndex?, nameOrFirst, hcolumn]
  | _ => rfl

theorem filterMap_keyConstraints {d : ColumnDefinition} (h : d.name.IsSimple) :
    (keyConstraints d).filterMap constraintIndex? =
      d.options.filterMap (inlineIndex? d.name.text) := by
  unfold keyConstraints
  rw [List.filterMap_filterMap]
  exact congrArg (List.filterMap · d.options) (funext (constraintIndex?_keyConstraint? h))

theorem inlineIndexes_listKeys : inlineIndexes (listKeys create) = [] := by
  unfold inlineIndexes listKeys
  rw [List.flatMap_map, List.flatMap_eq_nil_iff]
  intro d _
  rw [List.filterMap_eq_nil_iff]
  intro option hoption
  exact inlineIndex?_of_not_isKey (by simpa using (List.mem_filter.mp hoption).2) _

theorem indexes_listKeys (h : ∀ d ∈ create.columns, d.name.IsSimple) :
    indexes (listKeys create) = indexes create := by
  have hkeys : (create.columns.flatMap keyConstraints).filterMap constraintIndex? =
      inlineIndexes create := by
    rw [List.filterMap_flatMap]
    exact List.flatMap_congr fun d hd => filterMap_keyConstraints (h d hd)
  rw [indexes, inlineIndexes_listKeys, List.nil_append, indexes, ← hkeys, ← List.filterMap_append]
  rfl

/-! ## Columns -/

theorem columnNames_listKeys : columnNames (listKeys create) = columnNames create := by
  unfold columnNames listKeys
  rw [List.map_map]
  rfl

section Options

variable {options : List ColumnOption}

/-- What is asked of the other options does not see the keys. -/
theorem any_filter_not_isKey {p : ColumnOption → Bool} (h : ∀ o, isKey o = true → p o = false) :
    (options.filter (!isKey ·)).any p = options.any p := by
  rw [List.any_filter]
  congr 1
  funext o
  cases ho : isKey o with
  | false => rfl
  | true => exact (h o ho).symm

theorem findSome?_filter_not_isKey {α : Type} {f : ColumnOption → Option α}
    (h : ∀ o, isKey o = true → f o = none) :
    (options.filter (!isKey ·)).findSome? f = options.findSome? f := by
  induction options with
  | nil => rfl
  | cons o rest ih =>
    cases ho : isKey o with
    | false => rw [List.filter_cons_of_pos (by simp [ho]), List.findSome?_cons,
        List.findSome?_cons, ih]
    | true => rw [List.filter_cons_of_neg (by simp [ho]), List.findSome?_cons, h o ho, ih]

theorem isNotNull_of_isKey {o : ColumnOption} (h : isKey o = true) : isNotNull o = false := by
  cases o with
  | primaryKey | unique => rfl
  | _ => cases h

theorem isAutoIncrement_of_isKey {o : ColumnOption} (h : isKey o = true) :
    isAutoIncrement o = false := by
  cases o with
  | primaryKey | unique => rfl
  | _ => cases h

theorem lastDefault_filter_not_isKey :
    lastDefault (options.filter (!isKey ·)) = lastDefault options := by
  unfold lastDefault
  rw [← List.filter_reverse, findSome?_filter_not_isKey]
  intro o ho
  cases o with
  | primaryKey | unique => rfl
  | _ => cases ho

end Options

theorem column_withoutKeys (d : ColumnDefinition) (owning : List Index) :
    column (withoutKeys d) owning = column d owning := by
  unfold column withoutKeys
  simp only [any_filter_not_isKey fun _ => isNotNull_of_isKey,
    any_filter_not_isKey fun _ => isAutoIncrement_of_isKey, lastDefault_filter_not_isKey]

theorem columns_map_withoutKeys (table : String) (indexes : List Index) (seen : List String)
    (definitions : List ColumnDefinition) :
    columns table indexes seen (definitions.map withoutKeys) =
      columns table indexes seen definitions := by
  induction definitions generalizing seen with
  | nil => rfl
  | cons d rest ih =>
    have hname : (withoutKeys d).name = d.name := rfl
    rw [List.map_cons, columns_cons, columns_cons, hname, column_withoutKeys, ih]

/-! ## The statement -/

theorem relation_listKeys : relation (listKeys create) = relation create := rfl

theorem declared_listKeys (h : ∀ d ∈ create.columns, d.name.IsSimple) (cs : List Column) :
    declared (listKeys create) cs = declared create cs := by
  unfold declared
  rw [indexes_listKeys h, relation_listKeys]

/-- Writing the keys of the columns as constraints changes nothing, neither the table nor the
error, and leaves no key in a column. -/
theorem ofCreate_listKeys (h : ∀ d ∈ create.columns, d.name.IsSimple) :
    Table.ofCreate (listKeys create) = Table.ofCreate create ∧
      ∀ d ∈ (listKeys create).columns, ∀ o ∈ d.options, isKey o = false := by
  have hcolumns : (listKeys create).columns = create.columns.map withoutKeys := rfl
  constructor
  · simp only [ofCreate_eq, relation_listKeys, columnNames_listKeys, indexes_listKeys h,
      declared_listKeys h, hcolumns, columns_map_withoutKeys]
  · intro d hd o ho
    obtain ⟨c, _, rfl⟩ := List.mem_map.mp (hcolumns ▸ hd)
    simpa using (List.mem_filter.mp ho).2

/-- Keys of columns in every kind of quotes, beside a constraint. One column has two keys, and one
has a quote, a blank and parentheses in its name. -/
def quotedItems : CreateTable :=
  { name := [⟨"items", none⟩]
    columns := [
      ⟨⟨"id", some backtick⟩, .integer "INT" none false, [.unique, .notNull, .primaryKey]⟩,
      ⟨⟨"label \x60(old)", some '"'⟩, .integer "INT" none false, [.unique]⟩,
      ⟨⟨"rank", none⟩, .integer "INT" none false, [.notNull]⟩]
    constraints := [.index none [⟨"rank", none⟩]] }

def quotedItemsTable : Table :=
  { name := "items"
    columns := [
      ⟨"id", "int", .int32, 0, false, false, true, none, true, ["id"], []⟩,
      ⟨"label \x60(old)", "int", .int32, 0, false, false, false, none, false,
        ["label \x60(old)"], []⟩,
      ⟨"rank", "int", .int32, 0, false, false, true, none, false, [], ["rank"]⟩]
    indexes := [
      ⟨"id", false, true, ["id"]⟩,
      ⟨"PRIMARY", true, true, ["id"]⟩,
      ⟨"label \x60(old)", false, true, ["label \x60(old)"]⟩,
      ⟨"rank", false, false, ["rank"]⟩]
    isReadOnly := true }

theorem quotedItems_listKeys :
    (∀ d ∈ quotedItems.columns, d.name.IsSimple) ∧
      (listKeys quotedItems).constraints = [
        .unique none none [⟨"id", some backtick⟩],
        .primaryKey [⟨"id", some backtick⟩],
        .unique none none [⟨"label \x60(old)", some '"'⟩],
        .index none [⟨"rank", none⟩]] ∧
      Table.ofCreate quotedItems = .ok quotedItemsTable ∧
      Table.ofCreate (listKeys quotedItems) = .ok quotedItemsTable := by
  have hsimple : ∀ d ∈ quotedItems.columns, d.name.IsSimple := by
    simp only [quotedItems, List.forall_mem_cons]
    refine ⟨⟨by decide, by decide⟩, ⟨by decide, by decide⟩, ?_, nofun⟩
    show ∀ c ∈ ['r', 'a', 'n', 'k'], _
    simp only [List.forall_mem_cons]
    exact ⟨by decide, by decide, by decide, by decide, nofun⟩
  have haccepted : Table.ofCreate quotedItems = .ok quotedItemsTable :=
    Checks.eq_ok_of_toOption (by decide +kernel)
  exact ⟨hsimple, rfl, haccepted, (ofCreate_listKeys hsimple).1.trans haccepted⟩

end Tablewright.Declaration
