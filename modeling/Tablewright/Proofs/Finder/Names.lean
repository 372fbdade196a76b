import Tablewright.Proofs.Finder.Arguments

/-! The names of the lookups of a table. They are distinct, and none of them is the name of a method
that every data access of its kind has. -/

namespace Tablewright.Finder

/-- The names of the methods that are no lookups. -/
def otherMethods : List String := ["FindsAll", "Save", "Delete"]

theorem nodup_names_finders (t : Table) : (names t.finders).Nodup :=
  nodup_names_firstOfEachName [] (candidates t)

theorem name_cases {t : Table} {f : Finder} (hf : f ∈ t.finders) :
    f.name = "Find" ∨ ∃ fields, f.name = "FindBy" ++ fields := by
  rcases mem_lookups.mp (mem_lookups_of_mem_finders hf) with
    ⟨_, rfl⟩ | ⟨i, _, c, p, _, _, rfl | ⟨_, rfl⟩⟩
  · exact .inl rfl
  · exact .inr ⟨_, rfl⟩
  · exact .inr ⟨_, rfl⟩

theorem head?_name {t : Table} {f : Finder} (hf : f ∈ t.finders) :
    f.name.toList.head? = some 'F' := by
  rcases name_cases hf with hname | ⟨fields, hname⟩
  · rw [hname]
    decide
  · rw [hname, String.toList_append]
    rfl

theorem findBy_append_notMem (fields : String) : "FindBy" ++ fields ∉ otherMethods := by
  have hchars : ∀ name ∈ otherMethods, "FindBy".toList ++ fields.toList ≠ name.toList := by
    simp [otherMethods]
  intro h
  exact hchars _ h (by rw [String.toList_append])

theorem name_notMem_otherMethods {t : Table} {f : Finder} (hf : f ∈ t.finders) :
    f.name ∉ otherMethods := by
  rcases name_cases hf with hname | ⟨fields, hname⟩
  · rw [hname]
    decide
  · rw [hname]
    exact findBy_append_notMem fields

end Tablewright.Finder
