import Tablewright.Proofs.Finder.Candidates
import Tablewright.Proofs.Schema.Validity

/-! A lookup that answers with at most one row is backed by a unique index on its columns. It is
single if its prefix is as long as the columns that were found for the index, so what is needed is
that every column of the index is found: in an accepted table it is. -/

namespace Tablewright

/-- The table has the columns that its indexes name. -/
def Table.Resolves (t : Table) : Prop :=
  ∀ i ∈ t.indexes, ∀ c ∈ i.columns, c ∈ t.columns.map (·.name)

theorem Declaration.Declares.resolves {create : Sql.CreateTable} {t : Table}
    (keeps : Keeps create) (h : Declares create t) : t.Resolves := by
  intro i hi c hc
  rw [h.indexes] at hi
  rw [h.columnNames]
  exact (keeps.sound i hi c hc).2

theorem Table.exists_column? {t : Table} {name : String} (h : name ∈ t.columns.map (·.name)) :
    ∃ c, t.column? name = some c ∧ c.name = name := by
  obtain ⟨c, hc, hname⟩ := List.mem_map.mp h
  have hsome : (t.column? name).isSome = true := by
    unfold Table.column?
    rw [List.find?_isSome]
    exact ⟨c, hc, by simpa using hname⟩
  obtain ⟨found, hfound⟩ := Option.isSome_iff_exists.mp hsome
  exact ⟨found, hfound, by simpa using List.find?_some hfound⟩

/-- If every name is found, what is found has these names. -/
theorem Table.names_filterMap_column? {t : Table} {ns : List String}
    (h : ∀ n ∈ ns, n ∈ t.columns.map (·.name)) :
    (ns.filterMap t.column?).map (·.name) = ns := by
  induction ns with
  | nil => rfl
  | cons n ns ih =>
    obtain ⟨hn, hns⟩ := List.forall_mem_cons.mp h
    obtain ⟨c, hc, hname⟩ := Table.exists_column? hn
    rw [List.filterMap_cons_some hc, List.map_cons, hname, ih hns]

namespace Finder

theorem ownerLookup_single {t : Table} (h : (ownerLookup t).arity = .single) :
    ∃ i ∈ t.indexes, i.isUnique = true ∧ i.columns = [userIdColumn] := by
  unfold ownerLookup at h
  dsimp only at h
  split at h
  · assumption
  · cases h

theorem prefixLookup_single {isUnique : Bool} {cs : List Column} {k : Nat}
    (h : (prefixLookup isUnique cs k).arity = .single) :
    isUnique = true ∧ (prefixLookup isUnique cs k).columns = cs.map (·.name) := by
  unfold prefixLookup at h ⊢
  dsimp only at h ⊢
  split at h
  · rename_i hall
    obtain ⟨hunique, rfl⟩ := hall
    exact ⟨hunique, by rw [List.take_length]⟩
  · cases h

/-- Every single lookup compares for equality, and a unique index has exactly its columns. -/
theorem isUnique_of_single {create : Sql.CreateTable} {t : Table}
    (h : Table.ofCreate create = .ok t) {f : Finder} (hf : f ∈ t.finders)
    (ha : f.arity = .single) :
    f.lookup = .eq ∧ ∃ i ∈ t.indexes, i.isUnique = true ∧ i.columns = f.columns := by
  obtain ⟨keeps, declares⟩ := Declaration.ofCreate_eq_ok.mp h
  have hresolves := declares.resolves keeps
  have hmem : f ∈ lookups t := by
    rw [← candidates_eq_lookups]
    exact (firstOfEachName_sublist [] (candidates t)).mem hf
  rcases mem_lookups.mp hmem with ⟨_, rfl⟩ | ⟨i, hi, c, p, _, _, rfl | ⟨_, rfl⟩⟩
  · obtain ⟨i, hi, hunique, hcolumns⟩ := ownerLookup_single ha
    exact ⟨rfl, i, hi, hunique, hcolumns⟩
  · obtain ⟨hunique, hcolumns⟩ := prefixLookup_single ha
    rw [Table.names_filterMap_column? (hresolves i hi)] at hcolumns
    exact ⟨rfl, i, hi, hunique, hcolumns.symm⟩
  · cases ha

/-- The owner is no argument, but one of the columns that make the row unique. -/
def findByItemId : Finder :=
  ⟨"FindByItemID", [⟨"k0", "item_id", .int32, false⟩], .single, .eq, ["user_id", "item_id"]⟩

open Declaration in
theorem findByItemId_isUnique :
    Table.ofCreate userItems = .ok userItemsTable ∧ findByItemId ∈ userItemsTable.finders ∧
      findByItemId.arity = .single ∧ findByItemId.lookup = .eq ∧
      ∃ i ∈ userItemsTable.indexes, i.isUnique = true ∧ i.columns = findByItemId.columns := by
  have hf : findByItemId ∈ userItemsTable.finders := by decide +kernel
  exact ⟨ofCreate_userItems, hf, rfl, isUnique_of_single ofCreate_userItems hf rfl⟩

end Finder

end Tablewright
