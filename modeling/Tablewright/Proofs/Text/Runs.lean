import Mathlib.Data.List.TakeWhile
import Tablewright.Text.Runs

/-! The runs of a list are its maximal runs: a list falls into its runs wherever one of two
neighbours lacks the property, and nowhere else. -/

namespace Tablewright.Text

variable {p : α → Bool} {a b : α} {rest before run after xs ys : List α}

/-- A stretch of a list of which every element has a property, while neither the element before the
stretch nor the one behind it has. -/
structure IsMaximalRun (p : α → Bool) (before run after : List α) : Prop where
  nonempty : run ≠ []
  all : ∀ a ∈ run, p a = true
  start : ∀ a ∈ before.getLast?, p a = false
  stop : ∀ a ∈ after.head?, p a = false

/-! ## The beginning of a list -/

theorem takeWhile_run (hrun : ∀ a ∈ run, p a = true) (hafter : ∀ a ∈ after.head?, p a = false) :
    (run ++ after).takeWhile p = run := by
  rw [List.takeWhile_append_of_pos hrun]
  cases after with
  | nil => simp
  | cons a after => simp [hafter a rfl]

theorem dropWhile_run (hrun : ∀ a ∈ run, p a = true) (hafter : ∀ a ∈ after.head?, p a = false) :
    (run ++ after).dropWhile p = after := by
  rw [List.dropWhile_append_of_pos hrun]
  cases after with
  | nil => simp
  | cons a after => simp [hafter a rfl]

/-! ## All runs -/

/-- The first run begins with the first element. -/
theorem exists_runs_cons (p : α → Bool) (a : α) (rest : List α) :
    ∃ run more, runs p (a :: rest) = (a :: run) :: more := by
  unfold runs
  split
  · split
    · exact ⟨_, _, rfl⟩
    · exact ⟨[], _, rfl⟩
  · exact ⟨[], _, rfl⟩

theorem runs_cons_cons_of_pos {more : List (List α)} (ha : p a = true) (hb : p b = true)
    (h : runs p (b :: rest) = (b :: run) :: more) :
    runs p (a :: b :: rest) = (a :: b :: run) :: more := by
  rw [runs, h]
  simp [ha, hb]

/-- An element is alone if it or its neighbour lacks the property. -/
theorem runs_cons_of_cut (h : p a = false ∨ ∀ b ∈ rest.head?, p b = false) :
    runs p (a :: rest) = [a] :: runs p rest := by
  cases rest with
  | nil => rfl
  | cons b rest =>
    obtain ⟨run, more, hrest⟩ := exists_runs_cons p b rest
    have hcut : (p a && p b) = false := by
      rcases h with ha | hb
      · rw [ha, Bool.false_and]
      · rw [hb b rfl, Bool.and_false]
    rw [runs, hrest]
    simp [hcut]

/-- No run goes past an element that lacks the property. -/
theorem runs_append_of_cut
    (h : (∀ a ∈ xs.getLast?, p a = false) ∨ ∀ b ∈ ys.head?, p b = false) :
    runs p (xs ++ ys) = runs p xs ++ runs p ys := by
  induction xs with
  | nil => rfl
  | cons a rest ih =>
    cases rest with
    | nil => exact runs_cons_of_cut (h.imp_left fun ha => ha a rfl)
    | cons b rest =>
      have htail : runs p (b :: rest ++ ys) = runs p (b :: rest) ++ runs p ys :=
        ih (h.imp_left fun hlast => by rwa [List.getLast?_cons_cons] at hlast)
      obtain ⟨run, more, hruns⟩ := exists_runs_cons p b rest
      have hwhole : runs p (b :: (rest ++ ys)) = (b :: run) :: (more ++ runs p ys) := by
        rw [← List.cons_append, htail, hruns, List.cons_append]
      cases hboth : p a && p b with
      | true =>
        obtain ⟨ha, hb⟩ := Bool.and_eq_true_iff.mp hboth
        rw [runs_cons_cons_of_pos ha hb hruns, List.cons_append, List.cons_append,
          runs_cons_cons_of_pos ha hb hwhole, List.cons_append]
      | false =>
        have halone : ∀ tail, runs p (a :: b :: tail) = [a] :: runs p (b :: tail) := fun tail =>
          runs_cons_of_cut ((Bool.and_eq_false_iff.mp hboth).imp_right
            fun hb c hc => Option.mem_some.mp hc ▸ hb)
        rw [List.cons_append, List.cons_append, halone, hwhole, halone, hruns, List.cons_append,
          List.cons_append]

theorem runs_of_all (hne : run ≠ []) (h : ∀ a ∈ run, p a = true) : runs p run = [run] := by
  induction run with
  | nil => exact absurd rfl hne
  | cons a rest ih =>
    cases rest with
    | nil => rfl
    | cons b rest =>
      obtain ⟨ha, hrest⟩ := List.forall_mem_cons.mp h
      exact runs_cons_cons_of_pos ha (hrest b List.mem_cons_self) (ih (List.cons_ne_nil _ _) hrest)

/-- The run that a list begins with ends before the next element that lacks the property. -/
theorem isMaximalRun_takeWhile (p : α → Bool) (a : α) (rest : List α) (ha : p a = true) :
    IsMaximalRun p [] (a :: rest.takeWhile p) (rest.dropWhile p) where
  nonempty := List.cons_ne_nil _ _
  all := List.forall_mem_cons.mpr ⟨ha, fun _ hb => List.mem_takeWhile_imp hb⟩
  start := nofun
  stop b hb := by
    have hnot := List.head?_dropWhile_not p rest
    rwa [Option.mem_def.mp hb] at hnot

theorem IsMaximalRun.map {q : β → Bool} {f : α → β} (h : IsMaximalRun p before run after)
    (hq : ∀ a, q (f a) = p a) : IsMaximalRun q (before.map f) (run.map f) (after.map f) where
  nonempty := by simpa using h.nonempty
  all := List.forall_mem_map.mpr fun a ha => (hq a).trans (h.all a ha)
  start := by
    rw [List.getLast?_map]
    simpa [hq] using h.start
  stop := by
    rw [List.head?_map]
    simpa [hq] using h.stop

theorem IsMaximalRun.runs_eq (h : IsMaximalRun p before run after) :
    runs p (before ++ run ++ after) = runs p before ++ run :: runs p after := by
  rw [List.append_assoc, runs_append_of_cut (.inl h.start), runs_append_of_cut (.inr h.stop),
    runs_of_all h.nonempty h.all, List.singleton_append]

end Tablewright.Text
