import Tablewright.Proofs.Schema.Blame
import Tablewright.Proofs.Sql.Identifier

/-! How the columns of keys are told. A column is declared under the name itself, while a key is
read from the written form of its columns, and there a name ends at its first quote. So a name
between backticks is one and the same in both places exactly if it holds no backtick. -/

namespace Tablewright.Declaration

open Sql Checks

/-- The columns of a key as they stand in it. -/
def listed : TableConstraint → List Identifier
  | .primaryKey columns | .unique _ _ columns | .index _ columns => columns
  | .other => []

/-- The columns in all keys that are constraints of their own. -/
def listedColumns (create : CreateTable) : List Identifier := create.constraints.flatMap listed

/-- What is read from a column of a key, if it stands between backticks. -/
def ReadsBackticks (id : Identifier) (column : String) : Prop :=
  id.quote = some backtick →
    column = .ofList (id.text.toList.takeWhile (· ≠ backtick)) ∧
      (column = id.text ↔ backtick ∉ id.text.toList)

variable {create : CreateTable}

theorem readsBackticks_indexColumn (id : Identifier) : ReadsBackticks id (indexColumn id) := by
  obtain ⟨text, quote⟩ := id
  rintro ⟨⟩
  have hread := indexColumn_quoted (q := backtick) (by decide) text
  refine ⟨hread, ?_⟩
  rw [hread, ← takeWhile_ne_eq_self, ← String.toList_inj, String.toList_ofList]

theorem columns_of_constraintIndex? {k : TableConstraint} {i : Index}
    (h : constraintIndex? k = some i) : i.columns = (listed k).map indexColumn := by
  cases k <;> cases h <;> rfl

/-- An index that does not stand with a column is declared by a constraint. -/
theorem declared_or_listed {i : Index} (hi : i ∈ indexes create) {column : String}
    (hcolumn : column ∈ i.columns) :
    column ∈ columnNames create ∨ ∃ id ∈ listedColumns create, indexColumn id = column := by
  rcases List.mem_append.mp hi with hi | hi
  · obtain ⟨d, hd, hi⟩ := List.mem_flatMap.mp hi
    obtain ⟨option, _, hi⟩ := List.mem_filterMap.mp hi
    have hself : i.columns = [d.name.text] := by
      cases option <;> cases hi <;> rfl
    rw [hself, List.mem_singleton] at hcolumn
    exact .inl (hcolumn ▸ List.mem_map_of_mem hd)
  · obtain ⟨k, hk, hi⟩ := List.mem_filterMap.mp hi
    rw [columns_of_constraintIndex? hi] at hcolumn
    obtain ⟨id, hid, hread⟩ := List.mem_map.mp hcolumn
    exact .inr ⟨id, List.mem_flatMap.mpr ⟨k, hk, hid⟩, hread⟩

/-- A column is unknown only to the check of the indexes. -/
theorem unknown_of_ofCreate {table index column : String}
    (h : Table.ofCreate create = .error (.unknownIndexColumn table index column)) :
    column ∉ columnNames create ∧ ∃ i ∈ indexes create, column ∈ i.columns := by
  rw [ofCreate_eq] at h
  split at h
  · cases h
  · rcases check_bind_eq_error.mp h with h | ⟨_, h⟩
    · obtain ⟨i, c, ⟨before, after, hindexes, _⟩, ⟨earlier, later, hcolumns, _⟩, hfault⟩ :=
        checkIndexColumns_eq_error.mp h
      cases hfault with
      | unknown _ hunknown =>
        refine ⟨hunknown, i, ?_, ?_⟩
        · simp [hindexes]
        · simp [hcolumns]
    · rcases check_bind_eq_error.mp h with h | ⟨_, h⟩
      · cases checkPrimaryKey_eq_error.mp h
      · rcases bind_eq_error.mp h with h | ⟨_, _, h⟩
        · obtain ⟨_, d, _, _, _, hfault⟩ := columns_eq_error.mp h
          cases hfault
        · cases h

/-- A name between backticks is read from a key up to its first backtick. It is the name itself
exactly if it holds none, and only one that holds a backtick can be declared and yet unknown. -/
theorem ofCreate_readsListed (create : CreateTable) :
    (∀ k ∈ create.constraints, ∀ i, constraintIndex? k = some i →
      List.Forall₂ ReadsBackticks (listed k) i.columns) ∧
    ∀ table index column,
      Table.ofCreate create = .error (.unknownIndexColumn table index column) →
      column ∉ columnNames create ∧ (∃ id ∈ listedColumns create, indexColumn id = column) ∧
      ∀ id ∈ listedColumns create, indexColumn id = column → id.quote = some backtick →
        id.text ∈ columnNames create → backtick ∈ id.text.toList := by
  constructor
  · intro k _ i hi
    rw [columns_of_constraintIndex? hi, List.forall₂_map_right_iff, List.forall₂_same]
    exact fun id _ => readsBackticks_indexColumn id
  · intro table index column h
    obtain ⟨hunknown, i, hi, hcolumn⟩ := unknown_of_ofCreate h
    refine ⟨hunknown, (declared_or_listed hi hcolumn).resolve_left hunknown, ?_⟩
    intro id _ hread hquote hdeclared
    by_contra hnone
    have hsame := (readsBackticks_indexColumn id hquote).2.mpr hnone
    exact hunknown (hread ▸ hsame ▸ hdeclared)

/-- A key over a name with parentheses, and over a column that is not declared. -/
def strayItems : CreateTable :=
  { name := [⟨"items", none⟩]
    columns := [
      ⟨⟨"id", some backtick⟩, .integer "INT" none false, [.primaryKey]⟩,
      ⟨⟨"rank (old)", some backtick⟩, .integer "INT" none false, []⟩]
    constraints := [
      .index (some ⟨"k", none⟩) [⟨"rank (old)", some backtick⟩, ⟨"code", some backtick⟩]] }

theorem strayItems_readsListed :
    Table.ofCreate strayItems = .error (.unknownIndexColumn "items" "k" "code") ∧
      List.Forall₂ ReadsBackticks [⟨"rank (old)", some backtick⟩, ⟨"code", some backtick⟩]
        ["rank (old)", "code"] ∧
      "code" ∉ columnNames strayItems := by
  have hrefused : Table.ofCreate strayItems = .error (.unknownIndexColumn "items" "k" "code") :=
    eq_error_of_failure (by decide +kernel)
  have hindex : constraintIndex? (.index (some ⟨"k", none⟩)
      [⟨"rank (old)", some backtick⟩, ⟨"code", some backtick⟩]) =
        some ⟨"k", false, false, ["rank (old)", "code"]⟩ := by decide +kernel
  obtain ⟨hreads, hunknown⟩ := ofCreate_readsListed strayItems
  exact ⟨hrefused, hreads _ List.mem_cons_self _ hindex, (hunknown _ _ _ hrefused).1⟩

/-- A column with a backtick in its name, and the primary key on it. -/
def backtickKey : CreateTable :=
  { name := [⟨"items", none⟩]
    columns := [⟨⟨"a\x60b", some backtick⟩, .integer "INT" none false, []⟩]
    constraints := [.primaryKey [⟨"a\x60b", some backtick⟩]] }

/-- The same statement as a text, where the backtick is written twice. -/
def backtickKeyText : String :=
  "CREATE TABLE items (\x60a\x60\x60b\x60 INT, PRIMARY KEY (\x60a\x60\x60b\x60));"

def backtickKeyTokens : List Token := [
  .word "CREATE" none, .word "TABLE" none, .word "items" none, .mark "(",
  .word "a\x60b" (some backtick), .word "INT" none, .mark ",",
  .word "PRIMARY" none, .word "KEY" none, .mark "(", .word "a\x60b" (some backtick), .mark ")",
  .mark ")", .mark ";"]

theorem createTableOf_backtickKeyText : createTableOf backtickKeyText = .ok backtickKey := by
  have htokens : Lexer.tokens? backtickKeyText.toList = some backtickKeyTokens := by
    decide +kernel
  have hscript : Grammar.script 15 backtickKeyTokens = some ([.createTable backtickKey], []) := by
    rfl
  have hstatements : statements? backtickKeyText = some [.createTable backtickKey] := by
    rw [statements?, htokens]
    show (Grammar.script 15 backtickKeyTokens).map Prod.fst = _
    rw [hscript]
    rfl
  rw [createTableOf, hstatements]

/-- The primary key names the column that the statement declares, and it is reported as unknown. -/
theorem backtickKey_unknown :
    createTableOf backtickKeyText = .ok backtickKey ∧
      (∃ d ∈ backtickKey.columns, d.name ∈ listedColumns backtickKey ∧
        d.name.quote = some backtick ∧ indexColumn d.name ≠ d.name.text) ∧
      Table.ofCreate backtickKey = .error (.unknownIndexColumn "items" "PRIMARY" "a") := by
  refine ⟨createTableOf_backtickKeyText,
    ⟨_, List.mem_cons_self, List.mem_cons_self, rfl, by decide +kernel⟩, ?_⟩
  exact eq_error_of_failure (by decide +kernel)

end Tablewright.Declaration
