import Tablewright.Proofs.Yaml.Plain

/-! Quoted text is read as what was written. Single and double quotes differ in the characters that
stand as they are; how text is spread over runs, gaps and lines is the same for both. -/

namespace Tablewright.Yaml.Scalar

open Written

/-- A kind of quotes: how characters are written between them, and how runs are read. Characters
outside of runs are written as they are. -/
structure Quoting where
  quote : Char
  run? : List Char → Option Run
  write : Char → List Char
  inRun : Char → Bool
  isSolid_quote : isSolid quote = true
  inRun_space : inRun ' ' = false
  write_gap {c : Char} : inRun c = false → write c = [c]
  atGap_write {c : Char} (rest : List Char) : inRun c = true → atGap (write c ++ rest) = false
  run?_write {c : Char} (rest : List Char) :
    inRun c = true → run? (write c ++ rest) = (run? rest).map (·.cons c (write c).length)
  run?_gap {c : Char} (rest : List Char) :
    isSolid c = false → run? (c :: rest) = some ⟨[], 0, c :: rest⟩
  run?_quote {rest : List Char} :
    atGap rest = true → run? (quote :: rest) = some ⟨[], 0, quote :: rest⟩

namespace Quoting

variable {q : Quoting} {column : Nat}

/-- Whether the character is a break that stands as it is. -/
def breaks (q : Quoting) (c : Char) : Bool := !q.inRun c && isBreak c

/-- What stands between the quotes. A line after a break is indented by `column`. -/
def body (q : Quoting) (column : Nat) : List Char → List Char
  | [] => []
  | c :: cs =>
    q.write c ++
      ((if q.breaks c && !cs.head?.any q.breaks then spaces column else []) ++ q.body column cs)

theorem body_run {run : List Char} (h : ∀ c ∈ run, q.inRun c = true) (more : List Char) :
    q.body column (run ++ more) = run.flatMap q.write ++ q.body column more := by
  induction run with
  | nil => rfl
  | cons c run ih =>
    obtain ⟨hc, hrun⟩ := List.forall_mem_cons.mp h
    rw [List.cons_append, body, breaks, hc, ih hrun, List.flatMap_cons, List.append_assoc]
    rfl

theorem body_spaces (n : Nat) (more : List Char) :
    q.body column (spaces n ++ more) = spaces n ++ q.body column more := by
  induction n with
  | zero => rfl
  | succ n ih =>
    have hbreaks : q.breaks ' ' = false := by rw [breaks, Bool.and_eq_false_iff]; exact .inr rfl
    rw [spaces_succ, List.cons_append, body, hbreaks, q.write_gap q.inRun_space, ih]
    rfl

theorem body_breaks (column : Nat) {bs more : List Char}
    (h : ∀ c ∈ bs, q.inRun c = false ∧ isBreak c = true)
    (hne : bs ≠ []) (hmore : more.head?.all q.inRun = true) :
    q.body column (bs ++ more) = bs ++ (spaces column ++ q.body column more) := by
  induction bs with
  | nil => exact absurd rfl hne
  | cons b bs ih =>
    obtain ⟨⟨hrun, hbreak⟩, hbs⟩ := List.forall_mem_cons.mp h
    have hb : q.breaks b = true := by simp [breaks, hrun, hbreak]
    cases bs with
    | nil =>
      have hhead : more.head?.any q.breaks = false := by
        cases more with
        | nil => rfl
        | cons c more =>
          rw [List.head?_cons, Option.all_some] at hmore
          simp [breaks, hmore]
      simp [body, hb, hhead, q.write_gap hrun]
    | cons b' bs =>
      obtain ⟨⟨hrun', hbreak'⟩, _⟩ := List.forall_mem_cons.mp hbs
      have hhead : (b' :: bs ++ more).head?.any q.breaks = true := by
        simp [breaks, hrun', hbreak']
      rw [List.cons_append, body, ih hbs (by simp), q.write_gap hrun, hhead, hb]
      rfl

theorem atGap_body (column : Nat) {cs : List Char} (h : cs.head?.all q.inRun = true)
    (rest : List Char) :
    atGap (q.body column cs ++ q.quote :: rest) = false := by
  cases cs with
  | nil => rw [body, List.nil_append, atGap_cons, q.isSolid_quote]; rfl
  | cons c cs =>
    rw [body, List.append_assoc]
    exact q.atGap_write _ h

theorem run?_run {run rest : List Char} {c : Char} (h : ∀ c ∈ run, q.inRun c = true)
    (hc : q.run? (c :: rest) = some ⟨[], 0, c :: rest⟩) :
    q.run? (run.flatMap q.write ++ c :: rest) =
      some ⟨run, (run.flatMap q.write).length, c :: rest⟩ := by
  induction run with
  | nil => exact hc
  | cons d run ih =>
    obtain ⟨hd, hrun⟩ := List.forall_mem_cons.mp h
    rw [List.flatMap_cons, List.append_assoc, q.run?_write _ hd, ih hrun, Option.map_some, Run.cons,
      List.length_append, Nat.add_comm]

theorem quoted?_close {run rest : List Char} {width fuel : Nat} {cur : Cursor}
    (hend : cur.isEnd = false) (hrun : q.run? cur.rest = some ⟨run, width, q.quote :: rest⟩) :
    quoted? q.quote q.run? (fuel + 1) cur =
      some (run, ⟨cur.line, cur.column + width + 1, false, rest⟩) := by
  simp [quoted?, hend, hrun, Cursor.advance]

theorem quoted?_gap {run gap rest more : List Char} {c : Char} {width fuel : Nat}
    {cur next last : Cursor} (hend : cur.isEnd = false)
    (hrun : q.run? cur.rest = some ⟨run, width, c :: rest⟩) (hc : isSolid c = false)
    (hgap : gap? 0 ⟨cur.line, cur.column + width, false, c :: rest⟩ = some (gap, next))
    (hmore : quoted? q.quote q.run? fuel { next with isFresh := false } = some (more, last)) :
    quoted? q.quote q.run? (fuel + 1) cur = some (run ++ gap ++ more, last) := by
  have hquote : (c == q.quote) = false := by
    rw [beq_eq_false_iff_ne]
    rintro rfl
    rw [q.isSolid_quote] at hc
    cases hc
  have hslash : c ≠ '\\' := by
    rintro rfl
    cases hc
  simp [quoted?, hend, hrun, hquote, Cursor.advance, hslash, hgap, hmore]

theorem isEnd_eq_false {cur : Cursor} {cs rest : List Char} {c : Char} (h : 0 < cur.column)
    (hcur : cur.rest = cs ++ c :: rest) : cur.isEnd = false := by
  have hcolumn : cur.column ≠ 0 := by omega
  simp [Cursor.isEnd, hcur, hcolumn]

/-- Quoted text is read up to the closing quote. -/
theorem quoted?_runs {cs rest : List Char} (h : Runs q.inRun cs) (hrest : atGap rest = true)
    (hfeed : ∀ c ∈ cs, q.inRun c = false → c ≠ '\n') (hin : 0 < column) (fuel : Nat) (cur : Cursor)
    (hfuel : (q.body column cs).length ≤ fuel) (hcolumn : 0 < cur.column)
    (hcur : cur.rest = q.body column cs ++ q.quote :: rest) :
    ∃ last, quoted? q.quote q.run? (fuel + 1) cur = some (cs, last) ∧ last.rest = rest := by
  induction h generalizing fuel cur with
  | @last run hrun =>
    have hbody : q.body column run = run.flatMap q.write := by
      rw [← List.append_nil run, body_run hrun, List.append_nil, body, List.append_nil]
    have hstop : q.run? cur.rest = some ⟨run, (run.flatMap q.write).length, q.quote :: rest⟩ := by
      rw [hcur, hbody]
      exact run?_run hrun (q.run?_quote hrest)
    exact ⟨_, quoted?_close (isEnd_eq_false hcolumn hcur) hstop, rfl⟩
  | @blanks run n more hrun hmore _ ih =>
    have hend := isEnd_eq_false hcolumn hcur
    rw [body_run hrun, body_spaces, List.append_assoc, List.append_assoc] at hcur
    simp only [body_run hrun, body_spaces, List.length_append, length_spaces] at hfuel
    obtain ⟨fuel, rfl⟩ : ∃ m, fuel = m + 1 := ⟨fuel - 1, by omega⟩
    have hstop : q.run? cur.rest = some ⟨run, (run.flatMap q.write).length,
        spaces (n + 1) ++ (q.body column more ++ q.quote :: rest)⟩ := by
      rw [hcur]
      exact run?_run hrun (q.run?_gap _ rfl)
    have hgap := gap?_spaces 0 ⟨cur.line, cur.column + (run.flatMap q.write).length, false,
      spaces (n + 1) ++ (q.body column more ++ q.quote :: rest)⟩ rfl (atGap_body column hmore rest)
    obtain ⟨last, hread, hlast⟩ := ih (fun c hc => hfeed c (by simp [hc])) fuel
      ⟨cur.line, cur.column + (run.flatMap q.write).length + (n + 1), false,
        q.body column more ++ q.quote :: rest⟩ (by omega) (by simp only; omega) rfl
    refine ⟨last, ?_, hlast⟩
    rw [← List.append_assoc]
    refine quoted?_gap hend hstop rfl hgap ?_
    rw [← hread]
    simp [Cursor.advance]
  | @breaks run b bs more hrun hb hmore _ ih =>
    have hend := isEnd_eq_false hcolumn hcur
    have hbreaks := body_breaks column hb (by simp) hmore
    rw [body_run hrun, hbreaks, List.append_assoc, List.append_assoc, List.append_assoc] at hcur
    simp only [body_run hrun, hbreaks, List.length_append, List.length_cons] at hfuel
    obtain ⟨fuel, rfl⟩ : ∃ m, fuel = m + 1 := ⟨fuel - 1, by omega⟩
    obtain ⟨⟨hout, hbreak⟩, _⟩ := List.forall_mem_cons.mp hb
    have hgap : isSolid b = false := by simp [isSolid, hbreak]
    have hstop : q.run? cur.rest = some ⟨run, (run.flatMap q.write).length,
        b :: bs ++ (spaces column ++ (q.body column more ++ q.quote :: rest))⟩ := by
      rw [hcur]
      exact run?_run hrun (q.run?_gap _ hgap)
    obtain ⟨line, next, hnext, hread⟩ := gap?_breaks 0
      ⟨cur.line, cur.column + (run.flatMap q.write).length, false,
        b :: bs ++ (spaces column ++ (q.body column more ++ q.quote :: rest))⟩ rfl
      (fun c hc => (hb c hc).2) (hfeed b (by simp) hout) (.inr (atGap_body column hmore rest))
    obtain ⟨last, hmore, hlast⟩ := ih (fun c hc => hfeed c (by simp [hc])) fuel
      ⟨line, next, false, q.body column more ++ q.quote :: rest⟩ (by omega) (by simp only; omega)
      rfl
    refine ⟨last, ?_, hlast⟩
    rw [← List.append_assoc]
    exact quoted?_gap hend hstop hgap hread hmore

end Quoting

/-! ### Single quotes -/

theorem singleRun_cons {c : Char} {rest : List Char} (h : isSolid c = true) (hc : c ≠ '\x27') :
    singleRun (c :: rest) = (singleRun rest).cons c 1 := by
  obtain ⟨hblank, hbreak⟩ := isSolid_iff.mp h
  rw [singleRun]
  · simp [hc, hblank, hbreak]
  · intro _ heq
    exact absurd heq hc

theorem singleRun_gap {c : Char} {rest : List Char} (h : isSolid c = false) :
    singleRun (c :: rest) = ⟨[], 0, c :: rest⟩ := by
  have hgap : (isBlank c || isBreak c) = true := by
    simpa [isSolid, Decidable.imp_iff_not_or] using h
  rw [singleRun]
  · rw [Bool.or_assoc, hgap, Bool.or_true, if_pos rfl]
  · rintro _ rfl
    cases h

theorem singleRun_quote {rest : List Char} (h : atGap rest = true) :
    singleRun ('\x27' :: rest) = ⟨[], 0, '\x27' :: rest⟩ := by
  rw [singleRun]
  · rfl
  · rintro _ _ rfl
    cases h

/-- Between single quotes, breaks stand as they are, and a quote is doubled. -/
def single : Quoting where
  quote := '\x27'
  run? cs := some (singleRun cs)
  write := singleChar
  inRun := isSolid
  isSolid_quote := rfl
  inRun_space := rfl
  write_gap {c} h := by
    have hc : c ≠ '\x27' := by rintro rfl; cases h
    simp [singleChar, hc]
  atGap_write {c} rest h := by
    by_cases hc : c = '\x27'
    · subst hc
      rfl
    · simp [singleChar, hc, atGap_cons, h]
  run?_write {c} rest h := by
    by_cases hc : c = '\x27'
    · subst hc
      rfl
    · simp [singleChar, hc, singleRun_cons h hc]
  run?_gap rest h := by rw [singleRun_gap h]
  run?_quote h := by rw [singleRun_quote h]

@[simp] theorem breaks_single (c : Char) : single.breaks c = isBreak c := by
  cases hbreak : isBreak c <;> simp [Quoting.breaks, single, isSolid, hbreak]

theorem indented_singleChar {c : Char} (h : isBreak c = false) (column : Nat) (atStart : Bool)
    (rest : List Char) :
    indented column atStart (singleChar c ++ rest) =
      (if atStart then spaces column else []) ++ (singleChar c ++ indented column false rest) := by
  by_cases hc : c = '\x27'
  · subst hc
    simp [singleChar, indented, isBreak]
  · simp [singleChar, hc, indented, h]

theorem singleChar_break {c : Char} (h : isBreak c = true) : singleChar c = [c] :=
  single.write_gap (by simp [single, isSolid, h])

/-- The lines between single quotes, with the indentation of an empty last line. -/
theorem body_single (column : Nat) (cs : List Char) :
    indented column false (cs.flatMap singleChar) ++
      (if cs.getLast?.any isBreak then spaces column else []) = single.body column cs := by
  induction cs with
  | nil => rfl
  | cons c cs ih =>
    rw [Quoting.body, ← ih, breaks_single, List.flatMap_cons]
    cases hbreak : isBreak c with
    | false =>
      have hlast : (c :: cs).getLast?.any isBreak = cs.getLast?.any isBreak := by
        cases cs with
        | nil => simp [hbreak]
        | cons d cs => simp
      rw [indented_singleChar hbreak, hlast]
      simp [single]
    | true =>
      have hwrite : single.write c = [c] := singleChar_break hbreak
      rw [singleChar_break hbreak, hwrite, List.cons_append, indented, if_pos hbreak]
      cases cs with
      | nil => simp [indented, hbreak]
      | cons d cs =>
        cases hd : isBreak d with
        | true => simp [singleChar_break hd, indented, hd]
        | false => simp [indented_singleChar hd, hd]

theorem singleQuoted_eq (column : Nat) (cs : List Char) :
    singleQuoted column cs = '\x27' :: (single.body column cs ++ ['\x27']) := by
  rw [singleQuoted, ← body_single]
  rfl

theorem anyPair_cons {test : Char → Char → Bool} {c : Char} {cs : List Char} :
    anyPair test (c :: cs) = (cs.head?.any (test c) || anyPair test cs) := by
  cases cs with
  | nil => rfl
  | cons d cs => rfl

theorem fitsSingle_cons {c : Char} {cs : List Char} (h : fitsSingle (c :: cs) = true) :
    isPrintable c = true ∧ fitsSingle cs = true ∧
      ∀ d ∈ cs.head?, ¬ (c = ' ' ∧ isBreak d = true) ∧ ¬ (isBreak c = true ∧ d = ' ') := by
  simp only [fitsSingle, keepsLines, isClean, anyPair_cons, List.all_cons, Bool.and_eq_true,
    Bool.not_eq_true', Bool.or_eq_false_iff] at h ⊢
  obtain ⟨⟨⟨hc, hclean⟩, hbefore, hb⟩, hafter, ha⟩ := h
  refine ⟨hc, ⟨⟨hclean, hb⟩, ha⟩, ?_⟩
  intro d hd
  rw [hd] at hbefore hafter
  constructor
  · rintro ⟨rfl, hbreak⟩
    simp [hbreak] at hbefore
  · rintro ⟨hbreak, rfl⟩
    simp [hbreak] at hafter

/-- No blanks stand beside the breaks of a text between single quotes. -/
theorem Runs.of_fitsSingle {cs : List Char} (h : fitsSingle cs = true) : Runs isSolid cs := by
  induction cs with
  | nil => exact .last (by simp)
  | cons c cs ih =>
    obtain ⟨hc, hcs, hpair⟩ := fitsSingle_cons h
    have hgap : ∀ d, isPrintable d = true → isSolid d = false → d = ' ' ∨ isBreak d = true := by
      intro d hprint hd
      cases hbreak : isBreak d with
      | true => exact .inr rfl
      | false =>
        refine .inl (eq_space_of_isPrintable hprint ?_)
        simpa [isSolid, hbreak] using hd
    have hhead : ∀ d ∈ cs.head?, isPrintable d = true := by
      intro d hd
      simp only [fitsSingle, keepsLines, isClean, Bool.and_eq_true, List.all_eq_true] at hcs
      exact hcs.1.1 d (List.mem_of_head? hd)
    cases hsolid : isSolid c with
    | true => exact .cons_run hsolid (ih hcs)
    | false =>
      rcases hgap c hc hsolid with rfl | hbreak
      · refine .cons_space (fun d hd hdsolid => ?_) (ih hcs)
        exact (hgap d (hhead d hd) hdsolid).resolve_right fun h => (hpair d hd).1 ⟨rfl, h⟩
      · refine .cons_break ⟨hsolid, hbreak⟩ (fun d hd hdsolid => ?_) (ih hcs)
        exact (hgap d (hhead d hd) hdsolid).resolve_left fun h => (hpair d hd).2 ⟨hbreak, h⟩

/-- Text between single quotes is read as what was written. -/
theorem singleQuoted?_written {cs rest : List Char} {column : Nat} (h : fitsSingle cs = true)
    (hfeed : '\n' ∉ cs) (hrest : atGap rest = true) (hin : 0 < column) (fuel : Nat) (cur : Cursor)
    (hfuel : (singleQuoted column cs).length ≤ fuel)
    (hcur : cur.rest = singleQuoted column cs ++ rest) :
    ∃ last, singleQuoted? fuel cur = some (cs, last) ∧ last.rest = rest := by
  rw [singleQuoted_eq] at hcur hfuel
  simp only [List.length_cons, List.length_append] at hfuel
  obtain ⟨fuel, rfl⟩ : ∃ n, fuel = n + 1 := ⟨fuel - 1, by omega⟩
  have hnext : (cur.advance 1).rest = single.body column cs ++ '\x27' :: rest := by
    simp [Cursor.advance, hcur]
  refine single.quoted?_runs (.of_fitsSingle h) hrest ?_ hin fuel (cur.advance 1) (by omega)
    (by simp [Cursor.advance]) hnext
  intro c hc _ heq
  exact hfeed (heq ▸ hc)

end Tablewright.Yaml.Scalar
