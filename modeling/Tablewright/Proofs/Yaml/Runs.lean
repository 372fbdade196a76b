import Tablewright.Proofs.Yaml.Lines

/-! Texts as runs of characters with gaps between them. Readers of scalars go from gap to gap. -/

namespace Tablewright.Yaml.Scalar

open Written

/-! ### Gaps -/

theorem gap?_spaces (least : Nat) (cur : Cursor) {n : Nat} {rest : List Char}
    (h : cur.rest = spaces n ++ rest) (hrest : atGap rest = false) :
    gap? least cur = some (spaces n, cur.advance n) := by
  cases rest with
  | nil => cases hrest
  | cons c rest =>
    simp only [atGap, Bool.or_eq_false_iff] at hrest
    have hblank : ∀ b ∈ spaces n, isBlank b = true := by
      intro b hb
      rw [List.eq_of_mem_replicate hb]
      rfl
    simp [gap?, h, List.takeWhile_append_of_pos hblank, List.dropWhile_append_of_pos hblank, hrest]

theorem moreBreaks?_spaces {text : List Char} (h : text = [] ∨ atGap text = false)
    (least line column n : Nat) :
    moreBreaks? least line column (spaces n ++ text) =
      some ([], ⟨line, column + n, true, text⟩) := by
  induction n generalizing column with
  | zero =>
    rw [spaces_zero, List.nil_append]
    cases text with
    | nil => rfl
    | cons c rest =>
      simp only [atGap, isBlank, reduceCtorEq, false_or, Bool.or_eq_false_iff] at h
      simp [moreBreaks?, h]
  | succ n ih =>
    rw [spaces_succ, List.cons_append, moreBreaks?, if_neg (by decide), if_pos (by decide), ih,
      Nat.add_right_comm, Nat.add_assoc]

theorem moreBreaks?_breaks {bs text : List Char} (hb : ∀ b ∈ bs, isBreak b = true)
    (h : text = [] ∨ atGap text = false) (least line column n : Nat) :
    ∃ line' column', n ≤ column' ∧ moreBreaks? least line column (bs ++ (spaces n ++ text)) =
      some (bs, ⟨line', column', true, text⟩) := by
  induction bs generalizing line column with
  | nil => exact ⟨line, column + n, by omega, moreBreaks?_spaces h least line column n⟩
  | cons b bs ih =>
    obtain ⟨hbreak, hb⟩ := List.forall_mem_cons.mp hb
    obtain ⟨line', column', hn, hmore⟩ := ih hb (line + 1) 0
    refine ⟨line', column', hn, ?_⟩
    rw [List.cons_append, moreBreaks?, if_pos hbreak, hmore]
    rfl

/-- A gap with breaks stands for its breaks, unless the first is a line feed. -/
theorem gap?_breaks (least : Nat) (cur : Cursor) {b : Char} {bs text : List Char} {n : Nat}
    (hcur : cur.rest = b :: bs ++ (spaces n ++ text)) (hb : ∀ c ∈ b :: bs, isBreak c = true)
    (hfeed : b ≠ '\n') (h : text = [] ∨ atGap text = false) :
    ∃ line column, n ≤ column ∧ gap? least cur = some (b :: bs, ⟨line, column, true, text⟩) := by
  obtain ⟨hbreak, hbs⟩ := List.forall_mem_cons.mp hb
  obtain ⟨line, column, hn, hmore⟩ := moreBreaks?_breaks hbs h least (cur.line + 1) 0 n
  refine ⟨line, column, hn, ?_⟩
  have hblank : isBlank b = false := by
    rw [Bool.eq_false_iff]
    intro hblank
    simp only [isBlank, Bool.or_eq_true, beq_iff_eq] at hblank
    rcases hblank with rfl | rfl <;> cases hbreak
  have hfolded : folded (b :: bs) = b :: bs := by
    unfold folded
    split
    · next heq => exact absurd (List.cons.inj heq).1 hfeed
    · next heq => exact absurd (List.cons.inj heq).1 hfeed
    · rfl
  simp [gap?, hcur, hblank, hbreak, hmore, hfolded]

/-- The end of a line leads to the first token of the lines after it. -/
theorem gap?_lines (least : Nat) (cur : Cursor) {t : Lines} (hcur : cur.rest = '\n' :: t.chars)
    (ht : Token t.text) :
    ∃ gap line, gap? least cur = some (gap, ⟨line, t.indent, true, t.text⟩) := by
  have hmore := moreBreaks?_spaces ht.isEmpty_or_atGap least (cur.line + 1) 0 t.indent
  rw [Nat.zero_add] at hmore
  refine ⟨folded ['\n'], cur.line + 1, ?_⟩
  simp [gap?, hcur, Lines.chars, isBlank, isBreak, hmore]

/-! ### Runs -/

/-- The text is a run, and a gap and further runs may follow. A gap is blanks or breaks. -/
inductive Runs (inRun : Char → Bool) : List Char → Prop
  | last {run : List Char} (h : ∀ c ∈ run, inRun c = true) : Runs inRun run
  | blanks (run : List Char) (n : Nat) {more : List Char} (h : ∀ c ∈ run, inRun c = true)
      (hmore : more.head?.all inRun = true) (rest : Runs inRun more) :
      Runs inRun (run ++ (spaces (n + 1) ++ more))
  | breaks (run : List Char) (b : Char) (bs : List Char) {more : List Char}
      (h : ∀ c ∈ run, inRun c = true)
      (hb : ∀ c ∈ b :: bs, inRun c = false ∧ isBreak c = true)
      (hmore : more.head?.all inRun = true) (rest : Runs inRun more) :
      Runs inRun (run ++ (b :: bs ++ more))

namespace Runs

variable {inRun : Char → Bool} {c : Char} {cs : List Char}

theorem cons_run (hc : inRun c = true) (h : Runs inRun cs) : Runs inRun (c :: cs) := by
  cases h with
  | last h => exact .last (List.forall_mem_cons.mpr ⟨hc, h⟩)
  | blanks run n h hmore rest =>
    exact .blanks (c :: run) n (List.forall_mem_cons.mpr ⟨hc, h⟩) hmore rest
  | breaks run b bs h hb hmore rest =>
    exact .breaks (c :: run) b bs (List.forall_mem_cons.mpr ⟨hc, h⟩) hb hmore rest

theorem head_run {run : List Char} (more : List Char) (h : ∀ c ∈ run, inRun c = true)
    (hhead : (run ++ more).head?.all inRun = false) : run = [] := by
  cases run with
  | nil => rfl
  | cons c run =>
    rw [List.cons_append, List.head?_cons, Option.all_some, h c List.mem_cons_self] at hhead
    cases hhead

theorem cons_space (hc : ∀ b ∈ cs.head?, inRun b = false → b = ' ') (h : Runs inRun cs) :
    Runs inRun (' ' :: cs) := by
  cases hhead : cs.head?.all inRun with
  | true => exact .blanks [] 0 (by simp) hhead h
  | false =>
    cases h with
    | @last run h =>
      obtain rfl := head_run [] h (by rwa [List.append_nil])
      cases hhead
    | blanks run n h hmore rest =>
      obtain rfl := head_run _ h hhead
      exact .blanks [] (n + 1) (by simp) hmore rest
    | breaks run b bs h hb hmore rest =>
      obtain rfl := head_run _ h hhead
      obtain ⟨⟨hrun, hbreak⟩, _⟩ := List.forall_mem_cons.mp hb
      obtain rfl := hc b (by simp) hrun
      cases hbreak

theorem cons_break (hbreak : inRun c = false ∧ isBreak c = true)
    (hc : ∀ b ∈ cs.head?, inRun b = false → isBreak b = true) (h : Runs inRun cs) :
    Runs inRun (c :: cs) := by
  have hone : ∀ b ∈ [c], inRun b = false ∧ isBreak b = true := by
    intro b hb
    rwa [List.mem_singleton.mp hb]
  cases hhead : cs.head?.all inRun with
  | true => exact .breaks [] c [] (by simp) hone hhead h
  | false =>
    cases h with
    | @last run h =>
      obtain rfl := head_run [] h (by rwa [List.append_nil])
      cases hhead
    | blanks run n h hmore rest =>
      obtain rfl := head_run _ h hhead
      have hspace : inRun ' ' = false := by
        rw [List.nil_append, spaces_succ, List.cons_append, List.head?_cons] at hhead
        exact hhead
      exact absurd (hc ' ' (by simp [spaces_succ]) hspace) (by decide)
    | breaks run b bs h hb hmore rest =>
      obtain rfl := head_run _ h hhead
      exact .breaks [] c (b :: bs) (by simp) (List.forall_mem_cons.mpr ⟨hbreak, hb⟩)
        hmore rest

/-- A text whose gaps are all of blanks. -/
theorem of_blanks (h : ∀ c ∈ cs, inRun c = false → c = ' ') : Runs inRun cs := by
  induction cs with
  | nil => exact .last (by simp)
  | cons c cs ih =>
    obtain ⟨hc, hcs⟩ := List.forall_mem_cons.mp h
    cases hrun : inRun c with
    | true => exact cons_run hrun (ih hcs)
    | false =>
      obtain rfl := hc hrun
      exact cons_space (fun b hb => hcs b (List.mem_of_head? hb)) (ih hcs)

end Runs

end Tablewright.Yaml.Scalar
