import Tablewright.Proofs.Schema.Validity
import Tablewright.Proofs.Sql.Phrase

/-! The grammar has no key without columns: the columns of a key are read as a list of names, which
has one at least. So a text that declares a table declares a valid one. -/

namespace Tablewright

open Sql Phrase Declaration

namespace Sql.Grammar

theorem namedConstraint_listsColumns (name : Option Identifier) :
    Gives (namedConstraint name) ListsColumns := by
  have columns : Gives indexColumns (fun r => r.2 ≠ []) := by
    unfold indexColumns
    refine gives_then fun _ => gives_then fun _ => nameList_ne_nil.bind ?_
    intro columns hcolumns
    exact gives_pure hcolumns
  unfold namedConstraint
  refine .orElse ?_ (.orElse ?_ (.orElse ?_ ?_))
  · refine gives_then fun _ => gives_then fun _ => columns.bind ?_
    intro r hr
    exact gives_then fun _ => gives_then fun _ => gives_pure hr
  · refine gives_then fun _ => columns.bind ?_
    intro r hr
    exact gives_then fun _ => gives_then fun _ => gives_pure hr
  · refine gives_then fun _ => gives_then fun _ => gives_then fun _ => gives_then fun _ => ?_
    exact gives_then fun _ => gives_then fun _ => gives_then fun _ => gives_pure trivial
  · exact gives_then fun _ => gives_pure trivial

theorem plainIndex_listsColumns : Gives plainIndex ListsColumns := by
  unfold plainIndex
  refine .orElse ?_ ?_
  · refine gives_then fun _ => gives_then fun _ => gives_then fun _ => nameList_ne_nil.bind ?_
    intro columns hcolumns
    exact gives_pure hcolumns
  · refine gives_then fun _ => gives_then fun _ => gives_then fun _ => gives_then fun _ => ?_
    exact gives_pure trivial

theorem tableConstraint_listsColumns : Gives tableConstraint ListsColumns := by
  unfold tableConstraint
  refine .orElse ?_ (.orElse (namedConstraint_listsColumns none) plainIndex_listsColumns)
  refine gives_then fun _ => gives_then fun name => ?_
  exact namedConstraint_listsColumns (some name)

/-- A column is no constraint, so nothing is asked of it. -/
def ElementListsColumns (element : ColumnDefinition ⊕ TableConstraint) : Prop :=
  ∀ k, element = .inr k → ListsColumns k

theorem tableElement_listsColumns : Gives tableElement ElementListsColumns := by
  unfold tableElement
  refine gives_then fun isConstraint => ?_
  split
  · refine .map (tableConstraint_listsColumns.mono ?_)
    intro k hk k' hk'
    cases hk'
    exact hk
  · refine gives_then fun _ => .map ?_
    intro ts d rest _ k hk
    cases hk

theorem tableElements_listsColumns :
    Gives tableElements (fun elements => ∀ e ∈ elements, ElementListsColumns e) := by
  unfold tableElements
  refine gives_then fun _ => ?_
  split
  · refine .parens (.orElse ?_ (gives_pure (by simp)))
    exact tableElement_listsColumns.commaList.mono fun _ h => h.2
  · exact gives_pure (by simp)

theorem createTable_keysListColumns : Gives createTable KeysListColumns := by
  unfold createTable
  refine gives_then fun _ => gives_then fun _ => gives_then fun _ => gives_then fun _ => ?_
  refine gives_then fun _ => gives_then fun _ => gives_then fun _ => gives_then fun _ => ?_
  refine gives_then fun _ => gives_then fun _ => tableElements_listsColumns.bind ?_
  intro elements helements
  refine gives_then fun _ => gives_pure ?_
  intro k hk
  obtain ⟨e, he, hek⟩ := List.mem_filterMap.mp hk
  exact helements e he k (Sum.getRight?_eq_some_iff.mp hek)

def StatementListsColumns (statement : Statement) : Prop :=
  ∀ create, statement = .createTable create → KeysListColumns create

theorem statement_listsColumns : Gives statement StatementListsColumns := by
  have other : StatementListsColumns .other := by
    intro create h
    cases h
  unfold statement
  refine .orElse (.map ?_) (.orElse ?_ ?_)
  · refine createTable_keysListColumns.mono ?_
    intro create hcreate create' h
    cases h
    exact hcreate
  · exact gives_then fun _ => gives_pure other
  · refine gives_then fun _ => gives_then fun _ => gives_then fun _ => gives_then fun _ => ?_
    exact gives_pure other

theorem script_listsColumns (limit : Nat) :
    Gives (script limit) (fun statements => ∀ s ∈ statements, StatementListsColumns s) := by
  induction limit with
  | zero => exact gives_pure (by simp)
  | succ limit ih =>
    unfold script
    refine gives_then fun _ => gives_then fun _ => ?_
    split
    · exact gives_pure (by simp)
    · refine statement_listsColumns.bind ?_
      intro first hfirst
      have one : ∀ s ∈ [first], StatementListsColumns s := by simpa using hfirst
      refine gives_then fun _ => ?_
      split
      · exact .map (ih.mono fun _ hrest => List.forall_mem_cons.mpr ⟨hfirst, hrest⟩)
      · refine gives_then fun _ => ?_
        split
        · exact gives_pure one
        · exact gives_then fun _ => gives_pure one

end Sql.Grammar

/-- Every statement that the grammar reads has columns in its keys. -/
theorem keysListColumns_of_createTableOf {ddl : String} {create : CreateTable}
    (h : createTableOf ddl = .ok create) : KeysListColumns create := by
  unfold createTableOf at h
  split at h
  · cases h
  · rename_i created hstatements
    cases h
    unfold statements? at hstatements
    obtain ⟨tokens, _, hscript⟩ := Option.bind_eq_some_iff.mp hstatements
    obtain ⟨⟨statements, rest⟩, hread, heq⟩ := Option.map_eq_some_iff.mp hscript
    cases heq
    exact Grammar.script_listsColumns _ tokens _ rest hread _ List.mem_cons_self create rfl
  · cases h
  · cases h

/-- A text that declares a table declares a valid one. -/
theorem valid_of_ofSql {ddl : String} {t : Table} (h : Table.ofSql ddl = .ok t) : t.Valid := by
  obtain ⟨create, hcreate, ht⟩ := Checks.bind_eq_ok.mp h
  obtain ⟨keeps, declares⟩ := ofCreate_eq_ok.mp ht
  exact valid_of_declares (keysListColumns_of_createTableOf hcreate) keeps declares

end Tablewright
