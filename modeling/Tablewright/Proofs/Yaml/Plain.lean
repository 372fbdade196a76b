import Tablewright.Proofs.Yaml.Runs

/-! Plain text is read as itself, up to the token of the next line. -/

namespace Tablewright.Yaml

open Written

namespace Written

theorem holdsStructure_of_append {cs : List Char} (before : List Char)
    (h : holdsStructure (before ++ cs) = false) : holdsStructure cs = false := by
  induction before with
  | nil => exact h
  | cons c before ih =>
    rw [List.cons_append, holdsStructure, Bool.or_eq_false_iff] at h
    exact ih h.2

/-- No comment begins after a blank. -/
theorem ne_comment {c : Char} (before after : List Char)
    (h : holdsStructure (before ++ ' ' :: c :: after) = false) : c ≠ '#' := by
  rintro rfl
  have hblank := holdsStructure_of_append before h
  simp [holdsStructure, isBlank] at hblank

/-- The conditions on a plain text, one by one. -/
structure Unquoted (cs : List Char) : Prop where
  clean : ∀ c ∈ cs, isPrintable c = true
  unbroken : ∀ c ∈ cs, isBreak c = false
  head : cs.head? ≠ some ' '
  last : cs.getLast? ≠ some ' '
  start : startsStructure cs = false
  inside : holdsStructure cs = false

theorem fitsPlain_iff {cs : List Char} : fitsPlain cs = true ↔ Unquoted cs := by
  simp only [fitsPlain, isClean, Bool.and_eq_true, List.all_eq_true, Bool.not_eq_true',
    List.any_eq_false, bne_iff_ne, Bool.not_eq_true]
  constructor
  · intro ⟨⟨⟨⟨⟨clean, unbroken⟩, head⟩, last⟩, start⟩, inside⟩
    exact ⟨clean, unbroken, head, last, start, inside⟩
  · intro ⟨clean, unbroken, head, last, start, inside⟩
    exact ⟨⟨⟨⟨⟨clean, unbroken⟩, head⟩, last⟩, start⟩, inside⟩

/-- A space is the only blank that may be written. -/
theorem eq_space_of_isPrintable {c : Char} (h : isPrintable c = true) (hc : isBlank c = true) :
    c = ' ' := by
  simp only [isBlank, Bool.or_eq_true, beq_iff_eq] at hc
  rcases hc with rfl | rfl
  · rfl
  · cases h

end Written

namespace Scalar

theorem plainRun?_run {run more : List Char} (rest : List Char) (hrun : ∀ c ∈ run, isSolid c = true)
    (h : holdsStructure (run ++ rest) = false) (hrest : atGap rest = true)
    (hmore : atGap more = true) : plainRun? false (run ++ more) = some (run, more) := by
  induction run with
  | nil =>
    cases more with
    | nil => rfl
    | cons c more =>
      rw [atGap] at hmore
      rw [List.nil_append, plainRun?, if_pos hmore]
  | cons c run ih =>
    obtain ⟨hc, hrun⟩ := List.forall_mem_cons.mp hrun
    rw [List.cons_append, holdsStructure, Bool.or_eq_false_iff, Bool.or_eq_false_iff] at h
    have hgap : atGap (run ++ more) = atGap (run ++ rest) := by
      cases run with
      | nil => rw [List.nil_append, List.nil_append, hmore, hrest]
      | cons d run => rfl
    rw [isSolid_iff] at hc
    rw [List.cons_append, plainRun?, hc.1, hc.2, hgap, h.1.1, ih hrun h.2]
    rfl

/-- The last run of a plain text: the lines after it are not further in. -/
theorem plain?_last {run : List Char} {t : Lines} {least fuel : Nat} {cur : Cursor}
    (hrun : plainRun? false cur.rest = some (run, '\n' :: t.chars)) (hne : run ≠ [])
    (ht : Token t.text) (hleast : t.indent < least) :
    ∃ line, plain? false least (fuel + 1) cur = some (run, ⟨line, t.indent, true, t.text⟩) := by
  obtain ⟨gap, line, hgap⟩ :=
    gap?_lines least { cur.advance run.length with rest := '\n' :: t.chars } rfl ht
  have hstop : plainGoesOn false least ⟨line, t.indent, true, t.text⟩ = false := by
    simp [plainGoesOn, hleast]
  refine ⟨line, ?_⟩
  simp [plain?, hrun, hgap, hstop, hne, atGap, isBreak]

/-- A run of a plain text with a run after it on the same line. -/
theorem plain?_blanks {run more text : List Char} {n least fuel : Nat} {cur last : Cursor}
    (hrun : plainRun? false cur.rest = some (run, spaces (n + 1) ++ more)) (hne : run ≠ [])
    (hmore : atGap more = false) (hcomment : more.head? ≠ some '#') (hleast : least ≤ cur.column)
    (hnext : plain? false least fuel ⟨cur.line, cur.column + run.length + (n + 1), false, more⟩ =
      some (text, last)) (htext : text ≠ []) :
    plain? false least (fuel + 1) cur = some (run ++ spaces (n + 1) ++ text, last) := by
  have hgap := gap?_spaces least { cur.advance run.length with rest := spaces (n + 1) ++ more }
    rfl hmore
  have hcursor : Cursor.advance { cur.advance run.length with rest := spaces (n + 1) ++ more }
      (n + 1) = ⟨cur.line, cur.column + run.length + (n + 1), false, more⟩ := by
    simp [Cursor.advance]
  rw [hcursor] at hgap
  have hgoes : plainGoesOn false least
      ⟨cur.line, cur.column + run.length + (n + 1), false, more⟩ = true := by
    cases more with
    | nil => cases hmore
    | cons c more =>
      have hc : c ≠ '#' := fun h => hcomment (by rw [h]; rfl)
      have hcolumn : least ≤ cur.column + run.length + (n + 1) := by omega
      simp [plainGoesOn, Cursor.isEnd, Cursor.isBefore, hc, hcolumn]
  have hblank : atGap (spaces (n + 1) ++ more) = true := rfl
  cases text with
  | nil => exact absurd rfl htext
  | cons c text => simp [plain?, hrun, hgap, hgoes, hnext, hne, hblank]

theorem plain?_runs {cs : List Char} {t : Lines} {least : Nat} (h : Runs isSolid cs)
    (hne : cs ≠ []) (hhead : cs.head?.all isSolid = true) (hlast : cs.getLast? ≠ some ' ')
    (hunbroken : ∀ c ∈ cs, isBreak c = false) (hinside : holdsStructure cs = false)
    (ht : Token t.text) (hleast : t.indent < least) (fuel : Nat) (cur : Cursor)
    (hfuel : cs.length < fuel) (hcolumn : least ≤ cur.column)
    (hcur : cur.rest = cs ++ '\n' :: t.chars) :
    ∃ line, plain? false least fuel cur = some (cs, ⟨line, t.indent, true, t.text⟩) := by
  induction h generalizing fuel cur with
  | @last run hrun =>
    obtain ⟨fuel, rfl⟩ : ∃ n, fuel = n + 1 := ⟨fuel - 1, by omega⟩
    refine plain?_last ?_ hne ht hleast
    rw [hcur]
    exact plainRun?_run [] hrun (by rwa [List.append_nil]) rfl rfl
  | @blanks run n more hrun hmore rest ih =>
    obtain ⟨fuel, rfl⟩ : ∃ n, fuel = n + 1 := ⟨fuel - 1, by omega⟩
    have hrunNe : run ≠ [] := by
      rintro rfl
      cases hhead
    cases more with
    | nil => exact absurd (by simp [spaces, List.replicate_succ']) hlast
    | cons d more =>
      have hgap : atGap (d :: (more ++ '\n' :: t.chars)) = false := by
        rw [atGap_cons, Bool.not_eq_false']
        exact hmore
      have hcomment : d ≠ '#' := by
        refine ne_comment (run ++ spaces n) more ?_
        rw [← hinside, spaces, spaces, List.replicate_succ']
        simp
      have hinner : holdsStructure (d :: more) = false :=
        holdsStructure_of_append (run ++ spaces (n + 1)) (by rwa [List.append_assoc])
      rw [List.append_assoc, List.append_assoc, List.cons_append] at hcur
      simp only [List.length_append, length_spaces] at hfuel
      obtain ⟨line, hread⟩ := ih (by simp) hmore (by simpa using hlast)
        (fun c hc => hunbroken c (by simp [hc])) hinner fuel
        ⟨cur.line, cur.column + run.length + (n + 1), false, d :: (more ++ '\n' :: t.chars)⟩
        (by omega) (by simp only; omega) rfl
      refine ⟨line, ?_⟩
      rw [← List.append_assoc]
      refine plain?_blanks ?_ hrunNe hgap (by simpa using hcomment) hcolumn hread (by simp)
      rw [hcur]
      exact plainRun?_run _ hrun hinside rfl rfl
  | @breaks run b bs more hrun hb hmore rest ih =>
    obtain ⟨⟨_, hbreak⟩, _⟩ := List.forall_mem_cons.mp hb
    rw [hunbroken b (by simp)] at hbreak
    cases hbreak

/-- A text that needs no quotes is read as itself, if the lines after it are not further in. -/
theorem plain?_unquoted {cs : List Char} {t : Lines} {least : Nat} (h : Unquoted cs) (hne : cs ≠ [])
    (ht : Token t.text) (hleast : t.indent < least) (fuel : Nat) (cur : Cursor)
    (hfuel : cs.length < fuel) (hcolumn : least ≤ cur.column)
    (hcur : cur.rest = cs ++ '\n' :: t.chars) :
    ∃ line, plain? false least fuel cur = some (cs, ⟨line, t.indent, true, t.text⟩) := by
  have hchars : ∀ c ∈ cs, isSolid c = false → c = ' ' := by
    intro c hc hgap
    rw [isSolid, h.unbroken c hc, Bool.not_false, Bool.and_true, Bool.not_eq_false'] at hgap
    exact eq_space_of_isPrintable (h.clean c hc) hgap
  have hhead : cs.head?.all isSolid = true := by
    rw [Option.all_eq_true]
    intro c hc
    rw [← Bool.not_eq_false]
    intro hgap
    rw [hchars c (List.mem_of_head? hc) hgap] at hc
    exact h.head hc
  exact plain?_runs (.of_blanks hchars) hne hhead h.last h.unbroken h.inside ht hleast
    fuel cur hfuel hcolumn hcur

/-- A word is read as itself, up to a colon that makes it a key. -/
theorem plain?_key {key rest : List Char} (hkey : ∀ c ∈ key, isWordChar c = true)
    (hrest : atGap rest = true) {least fuel : Nat} {cur : Cursor}
    (hcur : cur.rest = key ++ ':' :: rest) :
    plain? false least (fuel + 1) cur =
      some (key, ⟨cur.line, cur.column + key.length, false, ':' :: rest⟩) := by
  have hrun : plainRun? false cur.rest = some (key, ':' :: rest) := by
    rw [hcur]
    clear hcur
    induction key with
    | nil => simp [plainRun?, isBlank, isBreak, hrest]
    | cons c key ih =>
      obtain ⟨hc, hkey⟩ := List.forall_mem_cons.mp hkey
      have hsolid := isSolid_iff.mp (isSolid_of_isWordChar hc)
      have hcolon : c ≠ ':' := by rintro rfl; cases hc
      simp [plainRun?, hsolid, hcolon, ih hkey]
  have hgap : atGap (':' :: rest) = false := rfl
  simp [plain?, hrun, hgap, Cursor.advance]

end Scalar

namespace Written

section Word

variable {cs : List Char} (h : ∀ c ∈ cs, isWordChar c = true)

include h

theorem startsStructure_word : startsStructure cs = false := by
  cases cs with
  | nil => rfl
  | cons c cs =>
    obtain ⟨hindicator, hgap, hpoint⟩ := isInner_of_isWordChar (h c List.mem_cons_self)
    have hdash : ('-' == c) = false := by
      rw [beq_eq_false_iff_ne]
      rintro rfl
      cases hgap
    have hpoint : ('.' == c) = false := by
      rw [beq_eq_false_iff_ne]
      exact fun h => hpoint h.symm
    simp [startsStructure, hindicator, hgap, List.isPrefixOf, hdash, hpoint]

theorem holdsStructure_word : holdsStructure cs = false := by
  induction cs with
  | nil => rfl
  | cons c cs ih =>
    obtain ⟨hc, hcs⟩ := List.forall_mem_cons.mp h
    have hsolid := isSolid_iff.mp (isSolid_of_isWordChar hc)
    have hcolon : c ≠ ':' := by rintro rfl; cases hc
    simp [holdsStructure, hsolid, hcolon, ih hcs]

/-- Words need no quotes. -/
theorem Unquoted.of_word : Unquoted cs where
  clean c hc := isPrintable_of_isWordChar (h c hc)
  unbroken c hc := (isSolid_iff.mp (isSolid_of_isWordChar (h c hc))).2
  head hc := absurd (h ' ' (List.mem_of_head? hc)) (by decide)
  last hc := absurd (h ' ' (List.mem_of_getLast? hc)) (by decide)
  start := startsStructure_word h
  inside := holdsStructure_word h

end Word

end Written

end Tablewright.Yaml
