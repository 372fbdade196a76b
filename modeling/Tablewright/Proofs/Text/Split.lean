import Mathlib.Data.List.Basic
import Tablewright.Text.Split

/-! The pieces of a text between its cuts: what a cut does to them, and that they hold all that is
no cut. -/

namespace Tablewright.Text

variable {isCut : Char → Bool} {c : Char} {cs piece : List Char}

/-- The pieces are those of the library. -/
theorem splitAt_eq_splitOnP (isCut : Char → Bool) (cs : List Char) :
    splitAt isCut cs = cs.splitOnP isCut := by
  induction cs with
  | nil => exact List.splitOnP_nil.symm
  | cons c rest ih =>
    rw [List.splitOnP_cons_eq_if_modifyHead, ← ih, splitAt]
    cases hrest : splitAt isCut rest with
    | nil => exact absurd hrest (splitAt_ne_nil isCut rest)
    | cons piece pieces => rfl

theorem splitAt_cons_of_pos (h : isCut c = true) (rest : List Char) :
    splitAt isCut (c :: rest) = [] :: splitAt isCut rest := by
  rw [splitAt, if_pos h]

theorem splitAt_cons_of_neg (h : isCut c = false) (rest : List Char) :
    splitAt isCut (c :: rest) = (splitAt isCut rest).modifyHead (c :: ·) := by
  simp only [splitAt_eq_splitOnP, List.splitOnP_cons_eq_if_modifyHead, h, Bool.false_eq_true,
    if_false]

/-- What is no cut begins the first piece. -/
theorem exists_splitAt_cons (h : isCut c = false) (rest : List Char) : ∃ piece pieces,
    splitAt isCut rest = piece :: pieces ∧ splitAt isCut (c :: rest) = (c :: piece) :: pieces := by
  obtain ⟨piece, pieces, hrest⟩ := List.exists_cons_of_ne_nil (splitAt_ne_nil isCut rest)
  refine ⟨piece, pieces, hrest, ?_⟩
  rw [splitAt_cons_of_neg h, hrest, List.modifyHead_cons]

/-- A cut ends one run of pieces and begins another. -/
theorem splitAt_append_cons (h : isCut c = true) (before after : List Char) :
    splitAt isCut (before ++ c :: after) = splitAt isCut before ++ splitAt isCut after := by
  simp only [splitAt_eq_splitOnP, List.splitOnP_append_cons before after h]

/-- Without a cut between them, the last piece of one text and the first of the next are one. -/
theorem exists_splitAt_append (isCut : Char → Bool) (before : List Char) :
    ∃ pieces last, splitAt isCut before = pieces ++ [last] ∧ ∀ after,
      splitAt isCut (before ++ after) =
        pieces ++ (splitAt isCut after).modifyHead (last ++ ·) := by
  induction before with
  | nil => exact ⟨[], [], rfl, fun after => (congrFun List.modifyHead_id _).symm⟩
  | cons c rest ih =>
    obtain ⟨pieces, last, hrest, hafter⟩ := ih
    cases hc : isCut c with
    | true =>
      refine ⟨[] :: pieces, last, ?_, fun after => ?_⟩
      · rw [splitAt_cons_of_pos hc, hrest, List.cons_append]
      · rw [List.cons_append, splitAt_cons_of_pos hc, hafter, List.cons_append]
    | false =>
      cases pieces with
      | nil =>
        refine ⟨[], c :: last, ?_, fun after => ?_⟩
        · rw [splitAt_cons_of_neg hc, hrest]
          rfl
        · rw [List.cons_append, splitAt_cons_of_neg hc, hafter, List.nil_append,
            List.modifyHead_modifyHead, List.nil_append]
          rfl
      | cons first pieces =>
        refine ⟨(c :: first) :: pieces, last, ?_, fun after => ?_⟩
        · rw [splitAt_cons_of_neg hc, hrest]
          rfl
        · rw [List.cons_append, splitAt_cons_of_neg hc, hafter]
          rfl

/-- Where the pieces are told apart, there is a cut. -/
theorem exists_cut_of_splitAt {first last : List (List Char)}
    (h : splitAt isCut cs = first ++ last) (hfirst : first ≠ []) (hlast : last ≠ []) :
    ∃ before cut after, cs = before ++ cut :: after ∧ isCut cut = true ∧
      splitAt isCut before = first ∧ splitAt isCut after = last := by
  induction cs generalizing first with
  | nil =>
    obtain ⟨p, ps, rfl⟩ := List.exists_cons_of_ne_nil hfirst
    obtain ⟨q, qs, rfl⟩ := List.exists_cons_of_ne_nil hlast
    simp [splitAt] at h
  | cons c rest ih =>
    obtain ⟨piece, pieces, rfl⟩ := List.exists_cons_of_ne_nil hfirst
    cases hc : isCut c with
    | true =>
      rw [splitAt_cons_of_pos hc, List.cons_append, List.cons.injEq] at h
      obtain ⟨rfl, hrest⟩ := h
      by_cases hpieces : pieces = []
      · subst hpieces
        exact ⟨[], c, rest, rfl, hc, rfl, hrest⟩
      · obtain ⟨before, cut, after, rfl, hcut, hbefore, hafter⟩ := ih hrest hpieces
        refine ⟨c :: before, cut, after, rfl, hcut, ?_, hafter⟩
        rw [splitAt_cons_of_pos hc, hbefore]
    | false =>
      obtain ⟨head, others, hrest, hcons⟩ := exists_splitAt_cons hc rest
      rw [hcons, List.cons_append, List.cons.injEq] at h
      obtain ⟨rfl, rfl⟩ := h
      rw [← List.cons_append] at hrest
      obtain ⟨before, cut, after, rfl, hcut, hbefore, hafter⟩ :=
        ih hrest (List.cons_ne_nil head pieces)
      refine ⟨c :: before, cut, after, rfl, hcut, ?_, hafter⟩
      rw [splitAt_cons_of_neg hc, hbefore, List.modifyHead_cons]

theorem subset_of_mem_splitAt (h : piece ∈ splitAt isCut cs) : piece ⊆ cs := by
  induction cs generalizing piece with
  | nil =>
    obtain rfl := List.mem_singleton.mp h
    exact List.Subset.refl []
  | cons c rest ih =>
    cases hc : isCut c with
    | true =>
      rw [splitAt_cons_of_pos hc] at h
      rcases List.mem_cons.mp h with rfl | h
      · exact List.nil_subset _
      · exact List.subset_cons_of_subset c (ih h)
    | false =>
      obtain ⟨first, pieces, hrest, hcons⟩ := exists_splitAt_cons hc rest
      rw [hcons] at h
      rw [hrest] at ih
      rcases List.mem_cons.mp h with rfl | h
      · exact List.cons_subset_cons c (ih List.mem_cons_self)
      · exact List.subset_cons_of_subset c (ih (List.mem_cons_of_mem first h))

theorem splitAt_of_forall_neg (h : ∀ c ∈ cs, isCut c = false) : splitAt isCut cs = [cs] := by
  rw [splitAt_eq_splitOnP, List.splitOnP_eq_singleton h]

theorem eq_of_splitAt_eq_singleton (h : splitAt isCut cs = [piece]) : cs = piece := by
  induction cs generalizing piece with
  | nil => exact List.singleton_inj.mp h
  | cons c rest ih =>
    cases hc : isCut c with
    | true =>
      rw [splitAt_cons_of_pos hc, List.cons.injEq] at h
      exact absurd h.2 (splitAt_ne_nil isCut rest)
    | false =>
      obtain ⟨first, pieces, hrest, hcons⟩ := exists_splitAt_cons hc rest
      rw [hcons, List.cons.injEq] at h
      obtain ⟨rfl, rfl⟩ := h
      rw [ih hrest]

theorem intercalate_splitAt (cut : Char) (cs : List Char) :
    [cut].intercalate (splitAt (· == cut) cs) = cs := by
  rw [splitAt_eq_splitOnP]
  exact List.intercalate_splitOn cut

/-- Every character is one of the cuts or stands in one of the pieces. -/
theorem mem_splitAt (isCut : Char → Bool) {cs : List Char} {c : Char} (h : c ∈ cs) :
    isCut c = true ∨ ∃ piece ∈ splitAt isCut cs, c ∈ piece := by
  induction cs with
  | nil => cases h
  | cons d rest ih =>
    cases hd : isCut d with
    | true =>
      rw [splitAt_cons_of_pos hd]
      rcases List.mem_cons.mp h with rfl | h
      · exact .inl hd
      · rcases ih h with hcut | ⟨w, hw, hc⟩
        · exact .inl hcut
        · exact .inr ⟨w, List.mem_cons_of_mem _ hw, hc⟩
    | false =>
      obtain ⟨piece, pieces, hrest, hcons⟩ := exists_splitAt_cons hd rest
      rw [hrest] at ih
      rw [hcons]
      rcases List.mem_cons.mp h with rfl | h
      · exact .inr ⟨_, List.mem_cons_self, List.mem_cons_self⟩
      · rcases ih h with hcut | ⟨w, hw, hc⟩
        · exact .inl hcut
        · rcases List.mem_cons.mp hw with rfl | hw
          · exact .inr ⟨_, List.mem_cons_self, List.mem_cons_of_mem _ hc⟩
          · exact .inr ⟨w, List.mem_cons_of_mem _ hw, hc⟩

/-! ## Lines -/

theorem unlines_append (lines more : List String) :
    unlines (lines ++ more) = unlines lines ++ unlines more := by
  rw [unlines, List.map_append, String.join_append, unlines, unlines]

theorem toList_unlines_cons (line : String) (rest : List String) :
    (unlines (line :: rest)).toList = line.toList ++ '\n' :: (unlines rest).toList := by
  rw [unlines, List.map_cons, String.join_cons, String.toList_append, String.toList_append,
    List.append_assoc]
  rfl

/-- Lines come back from their text. What follows the last line feed counts as a line. -/
theorem lines_unlines {ls : List String} (h : ∀ line ∈ ls, '\n' ∉ line.toList) :
    lines (unlines ls) = ls ++ [""] := by
  induction ls with
  | nil => rfl
  | cons line rest ih =>
    obtain ⟨hline, hrest⟩ := List.forall_mem_cons.mp h
    have hwhole : splitAt (· == '\n') line.toList = [line.toList] :=
      splitAt_of_forall_neg fun c hc => beq_eq_false_iff_ne.mpr (ne_of_mem_of_not_mem hc hline)
    have hfirst : splitAt (· == '\n') (unlines (line :: rest)).toList =
        splitAt (· == '\n') line.toList ++ splitAt (· == '\n') (unlines rest).toList := by
      rw [toList_unlines_cons]
      exact splitAt_append_cons rfl _ _
    unfold lines at ih ⊢
    rw [hfirst, hwhole, List.map_append, ih hrest, List.map_singleton, String.ofList_toList]
    rfl

/-! ## Beginnings -/

theorem dropStart?_append (start rest : List Char) : dropStart? start (start ++ rest) = some rest := by
  induction start with
  | nil => rfl
  | cons c start ih => rw [List.cons_append, dropStart?, if_pos rfl, ih]

end Tablewright.Text
