import Tablewright.Proofs.Finder.Candidates

/-! The arguments of a lookup. They stand for its columns in order, the owner's left out, and each is
typed by a column of the table. -/

namespace Tablewright.Finder

theorem mem_lookups_of_mem_finders {t : Table} {f : Finder} (hf : f ∈ t.finders) :
    f ∈ lookups t := by
  rw [← candidates_eq_lookups]
  exact (firstOfEachName_sublist [] (candidates t)).mem hf

/-- The argument stands for the column. -/
structure StandsFor (a : FinderArg) (c : Column) : Prop where
  column : a.column = c.name
  entityType : a.entityType = c.entityType

theorem map_column_args_prefixLookup (isUnique : Bool) (cs : List Column) (k : Nat) :
    (prefixLookup isUnique cs k).args.map (·.column) = (givenColumns (cs.take k)).map (·.name) := by
  refine List.ext_getElem (by simp [prefixLookup]) ?_
  intro n _ _
  simp [prefixLookup]

theorem columns_args_prefixLookup (isUnique : Bool) (cs : List Column) (k : Nat) :
    (prefixLookup isUnique cs k).args.map (·.column) =
      (prefixLookup isUnique cs k).columns.filter (· ≠ userIdColumn) := by
  rw [map_column_args_prefixLookup, givenColumns, prefixLookup, List.filter_map]
  rfl

/-- A lookup has an argument for every column but the owner's. -/
theorem columns_args {t : Table} {f : Finder} (hf : f ∈ t.finders) :
    f.args.map (·.column) = f.columns.filter (· ≠ userIdColumn) := by
  rcases mem_lookups.mp (mem_lookups_of_mem_finders hf) with
    ⟨_, rfl⟩ | ⟨i, _, c, p, _, hc, rfl | ⟨_, rfl⟩⟩
  · simp [ownerLookup]
  · exact columns_args_prefixLookup _ _ _
  · simp [sequenceLookup, hc]

theorem mem_columns_of_mem_filterMap {t : Table} {ns : List String} {c : Column}
    (h : c ∈ ns.filterMap t.column?) : c ∈ t.columns := by
  obtain ⟨n, _, hn⟩ := List.mem_filterMap.mp h
  exact List.mem_of_find?_eq_some hn

theorem exists_standsFor {t : Table} {f : Finder} (hf : f ∈ t.finders) {a : FinderArg}
    (ha : a ∈ f.args) : ∃ c ∈ t.columns, StandsFor a c := by
  rcases mem_lookups.mp (mem_lookups_of_mem_finders hf) with
    ⟨_, rfl⟩ | ⟨i, _, c, p, hp, _, rfl | ⟨_, rfl⟩⟩
  · cases ha
  · obtain ⟨n, hn, rfl⟩ := List.mem_mapIdx.mp ha
    have hgiven := (List.mem_filter.mp (List.getElem_mem hn)).1
    exact ⟨_, mem_columns_of_mem_filterMap (List.mem_of_mem_take hgiven), rfl, rfl⟩
  · obtain rfl := List.mem_singleton.mp ha
    exact ⟨c, mem_columns_of_mem_filterMap (List.mem_of_getElem? hp), rfl, rfl⟩

end Tablewright.Finder
