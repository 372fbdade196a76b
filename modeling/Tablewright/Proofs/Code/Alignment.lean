import Mathlib.Data.List.Forall2
import Tablewright.Code.Alignment

/-! What the lines of a struct's fields and of a literal's entries hold, however wide their columns
are: the texts of the field or the entry as they are, and blanks between them. -/

namespace Tablewright.Text

/-- A run of several elements has only elements with the property. -/
theorem eq_singleton_or_forall_of_mem_runs {p : α → Bool} {xs run : List α}
    (h : run ∈ runs p xs) : (∃ a, run = [a]) ∨ ∀ a ∈ run, p a = true := by
  induction xs generalizing run with
  | nil => cases h
  | cons x rest ih =>
    unfold runs at h
    split at h
    · next b tail more hruns =>
      have hnext : ∀ run ∈ (b :: tail) :: more, (∃ a, run = [a]) ∨ ∀ a ∈ run, p a = true :=
        fun run hrun => ih (hruns ▸ hrun)
      split at h
      · next hboth =>
        obtain ⟨hx, hb⟩ := Bool.and_eq_true_iff.mp hboth
        rcases List.mem_cons.mp h with rfl | h
        · have htail : ∀ a ∈ b :: tail, p a = true := by
            rcases hnext _ List.mem_cons_self with ⟨a, heq⟩ | hall
            · cases heq
              exact List.forall_mem_singleton.mpr hb
            · exact hall
          exact .inr (List.forall_mem_cons.mpr ⟨hx, htail⟩)
        · exact hnext run (List.mem_cons_of_mem _ h)
      · rcases List.mem_cons.mp h with rfl | h
        · exact .inl ⟨x, rfl⟩
        · exact hnext run h
    · rcases List.mem_cons.mp h with rfl | h
      · exact .inl ⟨x, rfl⟩
      · exact ih h

/-- What holds within each run holds throughout the list. -/
theorem forall₂_flatMap_runs {R : α → β → Prop} {p : α → Bool} {f : List α → List β} (xs : List α)
    (h : ∀ run ∈ runs p xs, List.Forall₂ R run (f run)) :
    List.Forall₂ R xs ((runs p xs).flatMap f) := by
  have hruns : List.Forall₂ (List.Forall₂ R) (runs p xs) ((runs p xs).map f) :=
    List.forall₂_map_right_iff.mpr (List.forall₂_same.mpr h)
  have hflat := List.rel_flatten hruns
  rwa [flatten_runs] at hflat

end Tablewright.Text

namespace Tablewright.Code

open Tablewright.Text

/-- One blank or several. -/
def gap (more : Nat) : List Char := List.replicate (more + 1) ' '

theorem pad_append_blank (width : Nat) (s : String) (cs : List Char) :
    (pad width s).toList ++ ' ' :: cs = s.toList ++ (gap (width - s.length) ++ cs) := by
  simp [pad, gap, List.replicate_succ']

/-! ## Fields -/

/-- The line of a field whose type is written like this. -/
inductive IsFieldLine (field : Field) (type : List Char) : List Char → Prop
  | embedded (h : field.name = none) : IsFieldLine field type type
  | untagged (name : String) (h : field.name = some name) (n : Nat) (htags : field.tags = []) :
    IsFieldLine field type (name.toList ++ (gap n ++ type))
  | tagged (name : String) (h : field.name = some name) (n m : Nat) :
    IsFieldLine field type
      (name.toList ++ (gap n ++ (type ++ (gap m ++ (tagText field.tags).toList))))

theorem forall₂_alignedFields {run : List (Field × String)}
    (h : ∀ f ∈ run, f.1.name.isSome = true) :
    List.Forall₂ (fun f line => IsFieldLine f.1 f.2.toList line.toList) run
      (alignedFields run) := by
  refine List.forall₂_map_right_iff.mpr (List.forall₂_same.mpr fun f hf => ?_)
  obtain ⟨name, hname⟩ := Option.isSome_iff_exists.mp (h f hf)
  simp only [hname, Option.getD_some]
  have hblank : " ".toList = [' '] := rfl
  split
  · next htags =>
    simp only [String.toList_append, hblank, List.append_assoc, pad_append_blank]
    exact .untagged name hname _ (List.isEmpty_iff.mp htags)
  · simp only [String.toList_append, hblank, List.append_assoc, pad_append_blank]
    exact .tagged name hname _ _

/-- A struct has a line for each of its fields, in order. -/
theorem forall₂_fieldLines (fields : List (Field × String)) :
    List.Forall₂ (fun f line => IsFieldLine f.1 f.2.toList line.toList) fields
      (fieldLines fields) := by
  refine forall₂_flatMap_runs fields fun run hrun => ?_
  split
  · exact .cons (.embedded rfl) .nil
  · next hembedded =>
    refine forall₂_alignedFields ?_
    rcases eq_singleton_or_forall_of_mem_runs hrun with ⟨⟨⟨name, type, tags⟩, text⟩, rfl⟩ | hall
    · cases name with
      | none => exact absurd rfl (hembedded type tags text)
      | some name => simp
    · exact hall

/-! ## Entries -/

/-- The line of an entry: its key, a colon, blanks, its value and a comma. -/
def IsEntryLine (key value line : List Char) : Prop :=
  ∃ n, line = key ++ ':' :: (gap n ++ (value ++ [',']))

theorem forall₂_alignedEntries (run : List (String × String)) :
    List.Forall₂ (fun e line => IsEntryLine e.1.toList e.2.toList line.toList) run
      (alignedEntries run) := by
  refine List.forall₂_map_right_iff.mpr (List.forall₂_same.mpr fun e _ => ?_)
  refine ⟨columnWidth (run.map fun e => e.1 ++ ":") - (e.1 ++ ":").length, ?_⟩
  have hmarks : " ".toList = [' '] ∧ ":".toList = [':'] ∧ ",".toList = [','] := ⟨rfl, rfl, rfl⟩
  simp only [String.toList_append, hmarks, List.append_assoc, List.cons_append, List.nil_append,
    pad_append_blank]

/-- A literal has a line for each of its entries, in order. -/
theorem forall₂_entryLines (entries : List (String × String)) :
    List.Forall₂ (fun e line => IsEntryLine e.1.toList e.2.toList line.toList) entries
      (entryLines entries) := by
  refine forall₂_flatMap_runs entries fun run _ => ?_
  split
  · next key value =>
    split
    · exact forall₂_alignedEntries _
    · exact .cons ⟨0, by simp [gap]⟩ .nil
  · exact forall₂_alignedEntries _

end Tablewright.Code
