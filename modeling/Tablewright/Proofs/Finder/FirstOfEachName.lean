import Mathlib.Data.List.Nodup
import Tablewright.Finder

/-! Of several lookups with one name the first is kept. `FirstOfEachName` says what that means
without saying how it is done: one lookup for each name, the first that has it, and in the order in
which the names first occur. There is exactly one such list, and it is the one that is computed. -/

namespace Tablewright.Finder

def names (fs : List Finder) : List String := fs.map (·.name)

/-- The kept lookups are those of `all` that are the first of their name. -/
structure FirstOfEachName (all kept : List Finder) : Prop where
  distinct : (names kept).Nodup
  covers : ∀ f ∈ all, f.name ∈ names kept
  first : ∀ f ∈ kept, all.find? (·.name = f.name) = some f
  ordered : kept.Pairwise fun f g => (names all).idxOf f.name < (names all).idxOf g.name

/-! ## There is one such list -/

theorem FirstOfEachName.mem_iff {all kept : List Finder} (h : FirstOfEachName all kept)
    (f : Finder) : f ∈ kept ↔ all.find? (·.name = f.name) = some f := by
  constructor
  · exact h.first f
  · intro hf
    obtain ⟨g, hg, hname⟩ := List.mem_map.mp (h.covers f (List.mem_of_find?_eq_some hf))
    have hfirst := h.first g hg
    rw [hname, hf] at hfirst
    cases hfirst
    exact hg

theorem FirstOfEachName.unique {all kept kept' : List Finder} (h : FirstOfEachName all kept)
    (h' : FirstOfEachName all kept') : kept = kept' := by
  have hperm : kept.Perm kept' := by
    rw [List.perm_ext_iff_of_nodup (List.Nodup.of_map _ h.distinct)
      (List.Nodup.of_map _ h'.distinct)]
    intro f
    rw [h.mem_iff, h'.mem_iff]
  refine hperm.eq_of_pairwise ?_ h.ordered h'.ordered
  intro f g _ _ hfg hgf
  omega

/-! ## The computed list -/

theorem firstOfEachName_sublist (seen : List String) (fs : List Finder) :
    (firstOfEachName seen fs).Sublist fs := by
  induction fs generalizing seen with
  | nil => exact .slnil
  | cons f rest ih =>
    rw [firstOfEachName]
    split
    · exact .cons f (ih seen)
    · exact .cons_cons f (ih (f.name :: seen))

/-- No kept lookup has a name that was seen before. -/
theorem name_notMem_seen {seen : List String} {fs : List Finder} {f : Finder}
    (hf : f ∈ firstOfEachName seen fs) : f.name ∉ seen := by
  induction fs generalizing seen with
  | nil => cases hf
  | cons g rest ih =>
    rw [firstOfEachName] at hf
    split at hf
    · exact ih hf
    · rename_i hg
      rcases List.mem_cons.mp hf with rfl | hf
      · simpa using hg
      · intro hs
        exact ih hf (List.mem_cons_of_mem g.name hs)

theorem find?_firstOfEachName {seen : List String} {fs : List Finder} {f : Finder}
    (hf : f ∈ firstOfEachName seen fs) : fs.find? (·.name = f.name) = some f := by
  induction fs generalizing seen with
  | nil => cases hf
  | cons g rest ih =>
    rw [firstOfEachName] at hf
    split at hf
    · rename_i hg
      have hne : g.name ≠ f.name := by
        intro he
        exact name_notMem_seen hf (by simpa [he] using hg)
      rw [List.find?_cons_of_neg (by simpa using hne)]
      exact ih hf
    · rcases List.mem_cons.mp hf with rfl | hf
      · exact List.find?_cons_of_pos (by simp)
      · have hne : g.name ≠ f.name := by
          intro he
          exact name_notMem_seen hf (he ▸ List.mem_cons_self)
        rw [List.find?_cons_of_neg (by simpa using hne)]
        exact ih hf

theorem nodup_names_firstOfEachName (seen : List String) (fs : List Finder) :
    (names (firstOfEachName seen fs)).Nodup := by
  induction fs generalizing seen with
  | nil => exact List.nodup_nil
  | cons f rest ih =>
    rw [firstOfEachName]
    split
    · exact ih seen
    · refine List.nodup_cons.mpr ⟨?_, ih (f.name :: seen)⟩
      intro hmem
      obtain ⟨g, hg, hname⟩ := List.mem_map.mp hmem
      exact name_notMem_seen hg (hname ▸ List.mem_cons_self)

theorem name_mem_firstOfEachName (seen : List String) {fs : List Finder} {f : Finder}
    (hf : f ∈ fs) : f.name ∈ seen ∨ f.name ∈ names (firstOfEachName seen fs) := by
  induction fs generalizing seen with
  | nil => cases hf
  | cons g rest ih =>
    rw [firstOfEachName]
    split
    · rename_i hg
      rcases List.mem_cons.mp hf with rfl | hf
      · exact .inl (by simpa using hg)
      · exact ih seen hf
    · rcases List.mem_cons.mp hf with rfl | hf
      · exact .inr List.mem_cons_self
      · rcases ih (g.name :: seen) hf with hs | hk
        · rcases List.mem_cons.mp hs with he | hs
          · exact .inr (by rw [he]; exact List.mem_cons_self)
          · exact .inl hs
        · exact .inr (List.mem_cons_of_mem g.name hk)

/-- Behind a name that none of the lookups has, their names keep their order. -/
theorem pairwise_idxOf_cons {n : String} {ns : List String} {fs : List Finder}
    (h : fs.Pairwise fun f g => ns.idxOf f.name < ns.idxOf g.name) (hn : ∀ f ∈ fs, f.name ≠ n) :
    fs.Pairwise fun f g => (n :: ns).idxOf f.name < (n :: ns).idxOf g.name := by
  refine h.imp_of_mem ?_
  intro f g hf hg hlt
  rw [List.idxOf_cons_ne _ (hn f hf).symm, List.idxOf_cons_ne _ (hn g hg).symm]
  omega

theorem ordered_firstOfEachName (seen : List String) (fs : List Finder) :
    (firstOfEachName seen fs).Pairwise fun f g =>
      (names fs).idxOf f.name < (names fs).idxOf g.name := by
  induction fs generalizing seen with
  | nil => exact .nil
  | cons f rest ih =>
    rw [firstOfEachName]
    split
    · rename_i hf
      refine pairwise_idxOf_cons (ih seen) ?_
      intro g hg he
      exact name_notMem_seen hg (by simpa [he] using hf)
    · have hne : ∀ g ∈ firstOfEachName (f.name :: seen) rest, g.name ≠ f.name := by
        intro g hg he
        exact name_notMem_seen hg (he ▸ List.mem_cons_self)
      refine List.pairwise_cons.mpr ⟨?_, pairwise_idxOf_cons (ih (f.name :: seen)) hne⟩
      intro g hg
      show (f.name :: names rest).idxOf f.name < (f.name :: names rest).idxOf g.name
      rw [List.idxOf_cons_self, List.idxOf_cons_ne _ (hne g hg).symm]
      omega

theorem firstOfEachName_spec (fs : List Finder) : FirstOfEachName fs (firstOfEachName [] fs) where
  distinct := nodup_names_firstOfEachName [] fs
  covers := by
    intro f hf
    rcases name_mem_firstOfEachName [] hf with hs | hk
    · cases hs
    · exact hk
  first := fun _ hf => find?_firstOfEachName hf
  ordered := ordered_firstOfEachName [] fs

end Tablewright.Finder
