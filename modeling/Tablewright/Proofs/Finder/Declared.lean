import Tablewright.Proofs.Finder.Arguments
import Tablewright.Proofs.Finder.Single

/-! Lookups and the columns that a table declares. What comes from an index is resolved against the
table, so it names declared columns only. The lookup of the current user's rows comes from the
table's name alone: it is the one lookup that can name a column which is not there. -/

namespace Tablewright

namespace Table

theorem hasColumn_of_mem {t : Table} {c : Column} (h : c ∈ t.columns) :
    t.hasColumn c.name = true := by
  obtain ⟨found, hfound, _⟩ := exists_column? (List.mem_map_of_mem h)
  rw [hasColumn, hfound]
  rfl

/-- A column is found under its name if no other has that name. -/
theorem column?_of_mem {t : Table} (hn : (t.columns.map (·.name)).Nodup) {c : Column}
    (hc : c ∈ t.columns) : t.column? c.name = some c :=
  find?_key hn hc

end Table

namespace Finder

/-- The lookup of the current user's rows comes first, so none of its name displaces it. -/
theorem ownerLookup_mem_finders {t : Table} (h : t.convention = .userScoped) :
    ownerLookup t ∈ t.finders := by
  have hspec : FirstOfEachName (lookups t) t.finders := by
    unfold Table.finders
    rw [candidates_eq_lookups]
    exact firstOfEachName_spec (lookups t)
  rw [hspec.mem_iff, lookups, if_pos h, List.singleton_append]
  exact List.find?_cons_of_pos (by simp)

theorem hasColumn_of_mem_prefixLookup {t : Table} {ns : List String} {isUnique : Bool} {k : Nat}
    {column : String} (h : column ∈ (prefixLookup isUnique (ns.filterMap t.column?) k).columns) :
    t.hasColumn column = true := by
  obtain ⟨c, hc, rfl⟩ := List.mem_map.mp h
  exact Table.hasColumn_of_mem (mem_columns_of_mem_filterMap (List.mem_of_mem_take hc))

/-- A column of a lookup is declared, or it is the owner in the lookup that a name asks for. -/
theorem hasColumn_or_owner {t : Table} {f : Finder} (hf : f ∈ t.finders) {column : String}
    (hcolumn : column ∈ f.columns) :
    t.hasColumn column = true ∨
      t.convention = .userScoped ∧ f = ownerLookup t ∧ column = userIdColumn := by
  rcases mem_lookups.mp (mem_lookups_of_mem_finders hf) with
    ⟨hscoped, rfl⟩ | ⟨i, _, c, p, hp, _, rfl | ⟨_, rfl⟩⟩
  · exact .inr ⟨hscoped, rfl, List.mem_singleton.mp hcolumn⟩
  · exact .inl (hasColumn_of_mem_prefixLookup hcolumn)
  · obtain rfl := List.mem_singleton.mp hcolumn
    exact .inl (Table.hasColumn_of_mem (mem_columns_of_mem_filterMap (List.mem_of_getElem? hp)))

theorem column_ne_owner {t : Table} {f : Finder} (hf : f ∈ t.finders) {a : FinderArg}
    (ha : a ∈ f.args) : a.column ≠ userIdColumn := by
  have hmem : a.column ∈ f.args.map (·.column) := List.mem_map_of_mem ha
  rw [columns_args hf] at hmem
  exact of_decide_eq_true (List.mem_filter.mp hmem).2

/-- Every argument of a lookup stands for a declared column, not the owner's, and has its type. All
columns of all lookups are declared exactly if a table whose rows belong to users has a column for
the owner, and what a table without one lacks is the single column of `Find`. -/
theorem ofCreate_looksUpDeclared {create : Sql.CreateTable} {t : Table}
    (h : Table.ofCreate create = .ok t) :
    (∀ f ∈ t.finders, ∀ a ∈ f.args,
      a.column ≠ userIdColumn ∧ ∃ c, t.column? a.column = some c ∧ StandsFor a c) ∧
    ((∀ f ∈ t.finders, ∀ column ∈ f.columns, t.hasColumn column = true) ↔
      (t.convention = .userScoped → t.hasColumn userIdColumn = true)) ∧
    ∀ f ∈ t.finders, ∀ column ∈ f.columns, t.hasColumn column = false →
      t.convention = .userScoped ∧ f.name = "Find" ∧ f.columns = [userIdColumn] := by
  obtain ⟨keeps, declares⟩ := Declaration.ofCreate_eq_ok.mp h
  have hdistinct : (t.columns.map (·.name)).Nodup := declares.columnNames ▸ keeps.distinct
  refine ⟨?arguments, ⟨?needed, ?enough⟩, ?lacking⟩
  case arguments =>
    intro f hf a ha
    obtain ⟨c, hc, hstands⟩ := exists_standsFor hf ha
    exact ⟨column_ne_owner hf ha, c, hstands.column ▸ Table.column?_of_mem hdistinct hc, hstands⟩
  case needed =>
    intro hall hscoped
    exact hall _ (ownerLookup_mem_finders hscoped) userIdColumn List.mem_cons_self
  case enough =>
    intro howner f hf column hcolumn
    rcases hasColumn_or_owner hf hcolumn with hdeclared | ⟨hscoped, _, rfl⟩
    · exact hdeclared
    · exact howner hscoped
  case lacking =>
    intro f hf column hcolumn hmissing
    rcases hasColumn_or_owner hf hcolumn with hdeclared | ⟨hscoped, rfl, _⟩
    · rw [hmissing] at hdeclared
      cases hdeclared
    · exact ⟨hscoped, rfl, rfl⟩

open Declaration in
/-- The items of users have an owner, and the lookup by item is told by both columns. -/
theorem userItems_looksUpDeclared :
    Table.ofCreate userItems = .ok userItemsTable ∧ userItemsTable.convention = .userScoped ∧
      (∀ f ∈ userItemsTable.finders, ∀ column ∈ f.columns,
        userItemsTable.hasColumn column = true) ∧
      ∀ f ∈ userItemsTable.finders, ∀ a ∈ f.args,
        ∃ c, userItemsTable.column? a.column = some c ∧ StandsFor a c := by
  obtain ⟨hargs, hdeclared, _⟩ := ofCreate_looksUpDeclared ofCreate_userItems
  refine ⟨ofCreate_userItems, by decide, hdeclared.mpr fun _ => by decide, ?_⟩
  exact fun f hf a ha => (hargs f hf a ha).2

end Finder

namespace Declaration

open Sql

/-- A table whose name says that its rows belong to users, with no column that says to whom. -/
def ownerlessItems : CreateTable :=
  { name := [⟨"user_items", none⟩]
    columns := [⟨⟨"id", none⟩, .integer "INT" none false, [.notNull]⟩]
    constraints := [.primaryKey [⟨"id", none⟩]] }

def ownerlessItemsTable : Table :=
  { name := "user_items"
    columns := [⟨"id", "int", .int32, 0, false, false, true, none, true, [], []⟩]
    indexes := [⟨"PRIMARY", true, true, ["id"]⟩]
    isReadOnly := false }

/-- `Find` looks up a column that the table does not have, while saving leaves it out. -/
theorem ownerlessItems_looksUpUndeclared :
    Table.ofCreate ownerlessItems = .ok ownerlessItemsTable ∧
      (∃ f ∈ ownerlessItemsTable.finders,
        f.name = "Find" ∧ f.columns = [userIdColumn] ∧
          ownerlessItemsTable.hasColumn userIdColumn = false) ∧
      ∃ d, Dao.ofTable ownerlessItemsTable = .ok d ∧ d.setsUserId = false := by
  refine ⟨Checks.eq_ok_of_toOption (by decide +kernel), ?_, _, rfl, by decide⟩
  exact ⟨_, Finder.ownerLookup_mem_finders (by decide), rfl, rfl, by decide⟩

end Declaration

end Tablewright
