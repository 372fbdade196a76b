import Mathlib.Data.List.Induction
import Tablewright.Code.File
import Tablewright.Proofs.Code.Packages
import Tablewright.Proofs.Files.ByteOrder

/-! The import clause of a file. It lists every recorded path once, whatever was recorded how often:
the paths of the standard library in ascending order, then the others in ascending order, with an
empty line between the two groups if there is something on both sides of it. -/

namespace Tablewright.Code

open Tablewright.Text

/-! ## Recorded paths -/

/-- The distinct paths, in the order in which each comes first. -/
structure FirstOccurrences (paths imports : List String) : Prop where
  mem_iff : ∀ p, p ∈ imports ↔ p ∈ paths
  distinct : imports.Nodup
  ordered : imports.Pairwise fun p q => paths.idxOf p < paths.idxOf q

namespace SourceFile

theorem pairwise_idxOf_foldl_addImport (paths : List String) :
    (paths.foldl addImport []).Pairwise fun p q => paths.idxOf p < paths.idxOf q := by
  induction paths using List.reverseRecOn with
  | nil => exact .nil
  | append_singleton paths path ih =>
    have hmem : ∀ {p}, p ∈ paths.foldl addImport [] ↔ p ∈ paths := by simp [mem_foldl_addImport]
    -- What was recorded before has its place among the paths before.
    have hbefore : (paths.foldl addImport []).Pairwise fun p q =>
        (paths ++ [path]).idxOf p < (paths ++ [path]).idxOf q := by
      refine ih.imp_of_mem fun {p q} hp hq hlt => ?_
      rwa [List.idxOf_append_of_mem (hmem.mp hp), List.idxOf_append_of_mem (hmem.mp hq)]
    rw [List.foldl_append, List.foldl_cons, List.foldl_nil, addImport]
    split
    · exact hbefore
    · rename_i hnew
      have hpath : path ∉ paths := by simpa [hmem] using hnew
      refine List.pairwise_append.mpr ⟨hbefore, List.pairwise_singleton _ _, ?_⟩
      intro p hp q hq
      obtain rfl := List.mem_singleton.mp hq
      rw [List.idxOf_append_of_mem (hmem.mp hp), List.idxOf_append_of_notMem hpath,
        List.idxOf_cons_self]
      have hlt := List.idxOf_lt_length_of_mem (hmem.mp hp)
      omega

theorem firstOccurrences_imports (package : String) (paths : List String) (items : List Item) :
    FirstOccurrences paths (ofItems package paths items).imports where
  mem_iff _ := mem_imports_ofItems
  distinct := nodup_imports_ofItems
  ordered := pairwise_idxOf_foldl_addImport paths

end SourceFile

/-! ## The clause -/

/-- What stands before the first slash of a path. -/
def firstSegment (path : String) : List Char := path.toList.takeWhile (· ≠ '/')

theorem isStandardPath_iff {path : String} :
    isStandardPath path = true ↔ '.' ∉ firstSegment path := by
  simp [isStandardPath, firstSegment, bne, Bool.beq_eq_decide_eq]

/-- The two groups of an import clause: all the paths, those of the standard library first. -/
structure ImportGroups (imports standard others : List String) : Prop where
  perm : (standard ++ others).Perm imports
  dotless : ∀ p ∈ standard, '.' ∉ firstSegment p
  dotted : ∀ p ∈ others, '.' ∈ firstSegment p
  standardAscends : standard.Pairwise (· < ·)
  othersAscend : others.Pairwise (· < ·)

/-- A path on a line of its own between the parentheses of a clause. -/
def importLine (path : String) : String := "\t\"" ++ path ++ "\""

/-- The lines by which a file imports the given paths. -/
inductive ImportClause : List String → List String → Prop
  | none : ImportClause [] []
  | single (path : String) : ImportClause [path] ["", "import \"" ++ path ++ "\""]
  | block {imports standard others : List String} (several : 2 ≤ imports.length)
      (groups : ImportGroups imports standard others) :
      ImportClause imports (["", "import ("] ++ (standard.map importLine ++
        (if standard ≠ [] ∧ others ≠ [] then [""] else []) ++ others.map importLine) ++ [")"])

theorem sortPaths_perm (paths : List String) : (sortPaths paths).Perm paths :=
  List.mergeSort_perm _ _

/-- Distinct paths strictly ascend once they are sorted. -/
theorem pairwise_lt_sortPaths {paths : List String} (h : paths.Nodup) :
    (sortPaths paths).Pairwise (· < ·) := by
  have hsorted : (sortPaths paths).Pairwise (· ≤ ·) := Files.pairwise_le_mergeSort paths
  have hnodup : (sortPaths paths).Nodup := (sortPaths_perm paths).nodup_iff.mpr h
  refine (hsorted.and hnodup).imp fun {a b} hab => ?_
  -- Of two distinct paths the greater does not come first.
  by_contra hlt
  exact hab.2 (String.le_antisymm hab.1 (String.not_lt.mp hlt))

/-- The two groups hold all the paths. -/
theorem sortedGroups_perm (imports : List String) :
    (sortPaths (imports.filter isStandardPath) ++
      sortPaths (imports.filter (!isStandardPath ·))).Perm imports :=
  ((sortPaths_perm _).append (sortPaths_perm _)).trans (List.filter_append_perm _ _)

theorem importGroups {imports : List String} (h : imports.Nodup) :
    ImportGroups imports (sortPaths (imports.filter isStandardPath))
      (sortPaths (imports.filter (!isStandardPath ·))) where
  perm := sortedGroups_perm imports
  dotless p hp := by
    have hmem := List.mem_filter.mp ((sortPaths_perm _).mem_iff.mp hp)
    exact isStandardPath_iff.mp hmem.2
  dotted p hp := by
    have hmem := List.mem_filter.mp ((sortPaths_perm _).mem_iff.mp hp)
    have hnot : ¬ isStandardPath p = true := by simpa using hmem.2
    rw [isStandardPath_iff] at hnot
    exact not_not.mp hnot
  standardAscends := pairwise_lt_sortPaths (h.filter _)
  othersAscend := pairwise_lt_sortPaths (h.filter _)

theorem groupedImports_eq (imports : List String) :
    let standard := sortPaths (imports.filter isStandardPath)
    let others := sortPaths (imports.filter (!isStandardPath ·))
    groupedImports imports = standard.map importLine ++
      (if standard ≠ [] ∧ others ≠ [] then [""] else []) ++ others.map importLine := by
  intro standard others
  have hgap : (if standard.isEmpty || others.isEmpty then [] else [""]) =
      if standard ≠ [] ∧ others ≠ [] then [""] else [] := by
    cases standard <;> cases others <;> simp
  rw [← hgap]
  rfl

theorem importClause_importLines {imports : List String} (h : imports.Nodup) :
    ImportClause imports (importLines imports) := by
  unfold importLines
  split
  · exact .none
  · exact .single _
  · rename_i hne hone
    have hseveral : 2 ≤ imports.length := by
      rcases imports with _ | ⟨p, _ | ⟨q, rest⟩⟩
      · exact absurd rfl hne
      · exact absurd rfl (hone p)
      · simp
    rw [groupedImports_eq]
    exact .block hseveral (importGroups h)

/-- However paths are recorded, a file keeps the distinct ones in the order in which they came
first, and its text imports each of them once, in ascending groups. -/
theorem SourceFile.imports_listedOnce (package : String) (paths : List String)
    (items : List Item) :
    let file := ofItems package paths items
    FirstOccurrences paths file.imports ∧
      ∃ lines, ImportClause file.imports lines ∧
        file.render = "package " ++ package ++ "\n" ++ unlines lines ++
          String.join (items.map fun item => "\n" ++ item.render) := by
  intro file
  have hfirst := firstOccurrences_imports package paths items
  exact ⟨hfirst, importLines file.imports, importClause_importLines hfirst.distinct, rfl⟩

end Tablewright.Code
