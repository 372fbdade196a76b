import Tablewright.Proofs.Code.Written

/-! The lines of a block are indented by nesting. A line inside a statement may stand further in
than the statement, but neither its first line nor its last does. -/

namespace Tablewright.Code

open Tablewright.Text

/-! ## Lines and their depths -/

/-- The tabs that a line begins with. -/
def depth (line : String) : Nat := (line.toList.takeWhile (· == '\t')).length

/-- The line stands at a level or further in. -/
def Within (level : Nat) (line : String) : Prop := '\n' ∉ line.toList ∧ level ≤ depth line

/-- The text is lines, each ended by a line feed. The first and the last stand at a level, and the
others there or further in. -/
def StandsAt (level : Nat) (text : String) : Prop :=
  ∃ lines, text = unlines lines ∧ lines ≠ [] ∧ (∀ line ∈ lines, Within level line) ∧
    (∀ line ∈ lines.head?, depth line = level) ∧ ∀ line ∈ lines.getLast?, depth line = level

theorem depth_tabs_append (level : Nat) (s : String) :
    depth (tabs level ++ s) = level + depth s := by
  have htabs : ∀ c ∈ List.replicate level '\t', (c == '\t') = true := fun c hc =>
    beq_iff_eq.mpr (List.eq_of_mem_replicate hc)
  simp [depth, tabs, List.takeWhile_append_of_pos htabs]

/-- What does not begin with a tab adds none. -/
theorem depth_append {s t : String} (ht : depth t = 0) : depth (s ++ t) = depth s := by
  have hnone : t.toList.takeWhile (· == '\t') = [] := List.eq_nil_of_length_eq_zero ht
  unfold depth
  rw [String.toList_append, List.takeWhile_append, hnone]
  split
  · next hall => rw [List.append_nil, ← hall]
  · rfl

theorem depth_eq_zero {s : String} (h : Chars (· ≠ '\t') s) : depth s = 0 := by
  unfold depth
  cases hs : s.toList with
  | nil => rfl
  | cons c cs =>
    have hc : c ≠ '\t' := h c (hs ▸ List.mem_cons_self)
    rw [List.takeWhile_cons_of_neg (by simpa using hc), List.length_nil]

theorem within_append {level : Nat} {s t : String} (hs : Within level s) (ht : '\n' ∉ t.toList)
    (hdepth : depth t = 0) : Within level (s ++ t) := by
  refine ⟨?_, (depth_append hdepth).symm ▸ hs.2⟩
  rw [String.toList_append, List.mem_append, not_or]
  exact ⟨hs.1, ht⟩

theorem within_tabs_append (level : Nat) {s : String} (hs : '\n' ∉ s.toList) :
    Within level (tabs level ++ s) := by
  refine ⟨?_, (depth_tabs_append level s).symm ▸ Nat.le_add_right level (depth s)⟩
  have htabs : Chars (· ≠ '\n') (tabs level) := chars_tabs (by decide) level
  rw [String.toList_append, List.mem_append, not_or]
  exact ⟨fun h => htabs _ h rfl, hs⟩

/-! ## Texts that continue a line -/

/-- The lines that follow, each behind a line feed. -/
def continuation (lines : List String) : String := String.join (lines.map ("\n" ++ ·))

theorem append_continuation (first : String) (later : List String) :
    first ++ continuation later ++ "\n" = unlines (first :: later) := by
  induction later generalizing first with
  | nil => simp [continuation, unlines]
  | cons line later ih =>
    have hstep : first ++ continuation (line :: later) ++ "\n" =
        first ++ "\n" ++ (line ++ continuation later ++ "\n") := by
      simp only [continuation, List.map_cons, String.join_cons, String.append_assoc]
    rw [hstep, ih line]
    simp only [unlines, List.map_cons, String.join_cons]

theorem unlines_append_eq_continuation (lines : List String) (last : String) :
    "\n" ++ unlines lines ++ last = continuation (lines ++ [last]) := by
  induction lines with
  | nil => simp [continuation, unlines]
  | cons line lines ih =>
    have hstep : "\n" ++ unlines (line :: lines) ++ last =
        "\n" ++ line ++ ("\n" ++ unlines lines ++ last) := by
      simp only [unlines, List.map_cons, String.join_cons, String.append_assoc]
    rw [hstep, ih]
    simp only [continuation, List.cons_append, List.map_cons, String.join_cons]

/-- The last line is the first where no line follows. -/
theorem forall_getLast?_cons {q : String → Prop} {first : String} {later : List String}
    (hfirst : q first) (hlater : ∀ line ∈ later.getLast?, q line) :
    ∀ line ∈ (first :: later).getLast?, q line := by
  intro line hline
  rw [List.getLast?_cons] at hline
  obtain rfl := Option.mem_some.mp hline
  cases hlast : later.getLast? with
  | none => exact hfirst
  | some last => exact hlater last hlast

/-- The text goes on where a line has begun. The lines that follow stand at a level or further in,
and the last of them at the level. -/
def Continues (level : Nat) (s : String) : Prop :=
  ∃ first later, s = first ++ continuation later ∧ '\n' ∉ first.toList ∧ depth first = 0 ∧
    (∀ line ∈ later, Within level line) ∧ ∀ line ∈ later.getLast?, depth line = level

namespace Continues

variable {level : Nat} {s t : String}

theorem of_chars (h : Chars (fun c => c ≠ '\n' ∧ c ≠ '\t') s) : Continues level s :=
  ⟨s, [], by simp [continuation], fun hmem => (h _ hmem).1 rfl,
    depth_eq_zero fun c hc => (h c hc).2, nofun, nofun⟩

/-- The last line of one text and the first of the next are one. -/
theorem append (hs : Continues level s) (ht : Continues level t) : Continues level (s ++ t) := by
  obtain ⟨first, later, rfl, hfirst, hdepth, hlater, hlast⟩ := hs
  obtain ⟨first', later', rfl, hfirst', hdepth', hlater', hlast'⟩ := ht
  rcases List.eq_nil_or_concat' later with rfl | ⟨init, line, rfl⟩
  · refine ⟨first ++ first', later', ?_, ?_, ?_, hlater', hlast'⟩
    · simp [continuation, String.append_assoc]
    · rw [String.toList_append, List.mem_append, not_or]
      exact ⟨hfirst, hfirst'⟩
    · rw [depth_append hdepth', hdepth]
  · obtain ⟨hinit, hline⟩ := List.forall_mem_append.mp hlater
    have hseam : Within level (line ++ first') :=
      within_append (hline line List.mem_cons_self) hfirst' hdepth'
    have hseamdepth : depth (line ++ first') = level := by
      rw [depth_append hdepth']
      exact hlast line (by simp)
    refine ⟨first, init ++ (line ++ first') :: later', ?_, hfirst, hdepth, ?_, ?_⟩
    · simp [continuation, String.append_assoc]
    · exact List.forall_mem_append.mpr ⟨hinit, List.forall_mem_cons.mpr ⟨hseam, hlater'⟩⟩
    · rw [List.getLast?_append_of_ne_nil _ (List.cons_ne_nil _ _)]
      exact forall_getLast?_cons hseamdepth hlast'

/-- Lines further in, and the beginning of the line behind them. -/
theorem of_lines {lines : List String} (h : ∀ line ∈ lines, Within (level + 1) line) :
    Continues level ("\n" ++ unlines lines ++ tabs level) := by
  have htabs : Within level (tabs level) ∧ depth (tabs level) = level := by
    have hempty := within_tabs_append level (s := "") (by simp)
    rw [String.append_empty] at hempty
    exact ⟨hempty, by simp [depth, tabs]⟩
  refine ⟨"", lines ++ [tabs level], ?_, by simp, rfl, ?_, ?_⟩
  · rw [unlines_append_eq_continuation, String.empty_append]
  · refine List.forall_mem_append.mpr ⟨fun line hline => ?_, List.forall_mem_singleton.mpr htabs.1⟩
    exact ⟨(h line hline).1, Nat.le_of_succ_le (h line hline).2⟩
  · intro line hline
    rw [List.getLast?_concat] at hline
    exact Option.mem_some.mp hline ▸ htabs.2

/-- With the tabs before it and a line feed behind it, the text is lines. -/
theorem standsAt (h : Continues level s) : StandsAt level (tabs level ++ s ++ "\n") := by
  obtain ⟨first, later, rfl, hfirst, hdepth, hlater, hlast⟩ := h
  have hfirstdepth : depth (tabs level ++ first) = level := by
    rw [depth_tabs_append, hdepth, Nat.add_zero]
  refine ⟨(tabs level ++ first) :: later, ?_, List.cons_ne_nil _ _, ?_, ?_, ?_⟩
  · simp only [← append_continuation, String.append_assoc]
  · exact List.forall_mem_cons.mpr ⟨within_tabs_append level hfirst, hlater⟩
  · intro line hline
    exact Option.mem_some.mp hline ▸ hfirstdepth
  · exact forall_getLast?_cons hfirstdepth hlast

end Continues

/-! ## Written texts -/

/-- No character ends a line or indents one. -/
def isInline (c : Char) : Prop := c ≠ '\n' ∧ c ≠ '\t'

instance : DecidablePred isInline := fun _ => inferInstanceAs (Decidable (_ ∧ _))

theorem hasMarks_isInline : HasMarks isInline := by
  intro c hc
  constructor <;> rintro rfl <;> exact absurd hc (by decide)

/-- The lines of a text, or what continues one, are indented. -/
def Indented : Shape → Nat → String → Prop
  | .phrase, level, s => Continues level s
  | .lines, level, s => ∃ lines, s = unlines lines ∧ ∀ line ∈ lines, Within level line

theorem Written.indented {shape : Shape} {level : Nat} {xs : List Inset} {s : String}
    (h : Written isInline shape level xs s) : Indented shape level s := by
  induction h with
  | plain h => exact .of_chars h
  | literal value =>
    refine .of_chars fun c hc => ?_
    obtain ⟨hfeed, htab, -⟩ := chars_quote value c hc
    exact ⟨hfeed, htab⟩
  | append _ _ ih ih' => exact Continues.append ih ih'
  | entries _ ih =>
    obtain ⟨lines, rfl, hlines⟩ := ih
    exact .of_lines hlines
  | block _ _ ih =>
    obtain ⟨lines, htext, hlines⟩ := ih
    rw [htext]
    exact (Continues.append (.of_chars (by decide)) (.of_lines hlines)).append
      (.of_chars (by decide))
  | noLines => exact ⟨[], rfl, nofun⟩
  | line _ _ ih ih' =>
    obtain ⟨lines, htext, -, hlines, -, -⟩ := Continues.standsAt ih
    obtain ⟨more, rfl, hmore⟩ := ih'
    exact ⟨lines ++ more, by rw [htext, unlines_append], List.forall_mem_append.mpr ⟨hlines, hmore⟩⟩

/-- A block in braces stands in the text, with its closing brace at the level or further in, and its
statements one tab further in than that. -/
def Encloses (text : String) (level inner : Nat) (body : List Stmt) : Prop :=
  ∃ outer, inner = outer + 1 ∧ level ≤ outer ∧ ∃ before after, text = before ++
    (openBrace ++ ("\n" ++ renderBlock inner body ++ tabs outer) ++ closeBrace) ++ after

theorem Encloses.widen {text whole : String} {level lower inner : Nat} {body : List Stmt}
    (h : Encloses text level inner body) (hlevel : lower ≤ level) (before after : String)
    (hwhole : whole = before ++ text ++ after) : Encloses whole lower inner body := by
  obtain ⟨outer, rfl, houter, start, rest, htext⟩ := h
  refine ⟨outer, rfl, Nat.le_trans hlevel houter, before ++ start, rest ++ after, ?_⟩
  simp only [hwhole, htext, String.append_assoc]

theorem Written.encloses {shape : Shape} {level inner : Nat} {xs : List Inset} {s : String}
    {body : List Stmt} (h : Written isInline shape level xs s) (hbody : .block inner body ∈ xs) :
    Plain isInline (Stmt.verbatimOf body) ∧ Encloses s level inner body := by
  induction h with
  | plain h => cases hbody
  | literal value => cases List.mem_singleton.mp hbody
  | @append level xs ys s t _ _ ih ih' =>
    rcases List.mem_append.mp hbody with hmem | hmem
    · obtain ⟨hnames, hshown⟩ := ih hmem
      exact ⟨hnames, hshown.widen (Nat.le_refl level) "" t (by rw [String.empty_append])⟩
    · obtain ⟨hnames, hshown⟩ := ih' hmem
      exact ⟨hnames, hshown.widen (Nat.le_refl level) s "" (by rw [String.append_empty])⟩
  | @entries level xs s _ ih =>
    obtain ⟨hnames, hshown⟩ := ih hbody
    exact ⟨hnames, hshown.widen (Nat.le_succ level) _ _ rfl⟩
  | @block level xs body' hnames _ ih =>
    rcases List.mem_cons.mp hbody with heq | hmem
    · cases heq
      refine ⟨hnames, level, rfl, Nat.le_refl level, "", "", ?_⟩
      rw [String.empty_append, String.append_empty]
    · obtain ⟨hnames', hshown⟩ := ih hmem
      exact ⟨hnames', hshown.widen (Nat.le_succ level) (openBrace ++ "\n")
        (tabs level ++ closeBrace) (by simp only [String.append_assoc])⟩
  | noLines => cases hbody
  | @line level xs ys s t _ _ ih ih' =>
    rcases List.mem_append.mp hbody with hmem | hmem
    · obtain ⟨hnames, hshown⟩ := ih hmem
      exact ⟨hnames, hshown.widen (Nat.le_refl level) (tabs level) ("\n" ++ t) String.append_assoc⟩
    · obtain ⟨hnames, hshown⟩ := ih' hmem
      exact ⟨hnames, hshown.widen (Nat.le_refl level) (tabs level ++ s ++ "\n") ""
        (by rw [String.append_empty])⟩

/-! ## Blocks -/

theorem Stmt.standsAt_render (level : Nat) {s : Stmt} (h : Plain isInline s.verbatim) :
    StandsAt level (s.render level) := by
  obtain ⟨text, htext⟩ := s.written hasMarks_isInline level h
  rw [htext.render]
  exact Continues.standsAt htext.written.indented

theorem plain_verbatim_of_mem {p : Char → Prop} {body : List Stmt} {s : Stmt}
    (h : Plain p (Stmt.verbatimOf body)) (hs : s ∈ body) : Plain p s.verbatim := by
  induction body with
  | nil => cases hs
  | cons first rest ih =>
    obtain ⟨hfirst, hrest⟩ := Plain.append_iff.mp h
    rcases List.mem_cons.mp hs with rfl | hs
    · exact hfirst
    · exact ih hrest hs

theorem renderBlock_eq_join (level : Nat) (body : List Stmt) :
    renderBlock level body = String.join (body.map (Stmt.render level)) := by
  induction body with
  | nil => rfl
  | cons s rest ih => rw [renderBlock, ih, List.map_cons, String.join_cons]

/-- A block is its statements in order, each on lines at the level or further in, the first and the
last of them at the level. -/
structure LaidOut (level : Nat) (body : List Stmt) : Prop where
  statements : renderBlock level body = String.join (body.map (Stmt.render level))
  standsAt : ∀ s ∈ body, StandsAt level (s.render level)

theorem laidOut (level : Nat) {body : List Stmt} (h : Plain isInline (Stmt.verbatimOf body)) :
    LaidOut level body where
  statements := renderBlock_eq_join level body
  standsAt s hs := s.standsAt_render level (plain_verbatim_of_mem h hs)

/-- If no name in it ends a line or has a tab, a block is laid out at its level. So are the blocks
that are nested in it, each at the level that it has for its place, one tab further in than its
closing brace. -/
theorem renderBlock_laidOut (level : Nat) (body : List Stmt)
    (h : Plain isInline (Stmt.verbatimOf body)) :
    LaidOut level body ∧
      ∀ inner nested, Inset.block inner nested ∈ Stmt.insetsOf level body →
        LaidOut inner nested ∧ Encloses (renderBlock level body) level inner nested := by
  refine ⟨laidOut level h, fun inner nested hnested => ?_⟩
  obtain ⟨hnames, hshown⟩ :=
    (Stmt.writtenOf hasMarks_isInline level body h).encloses hnested
  exact ⟨laidOut inner hnames, hshown⟩

/-- A loop in a condition's block, and a function in a keyed literal before the condition: the body
of the function is two tabs further in than the condition, like that of the loop. -/
theorem renderBlock_laidOut_of_literal :
    let loop : Stmt := .range none "x" (.ident "xs") [.expr (.ident "x")]
    let callback : Expr := .func [] [.error] [.ret [.str "\n"]]
    let init : Stmt := .define ["t"] (.composite (.named "T") [("F", callback)])
    let body : List Stmt := [.when (some init) (.field (.ident "t") "F") [loop]]
    Plain isInline (Stmt.verbatimOf body) ∧
      Stmt.insetsOf 1 body = [.block 3 [.ret [.str "\n"]], .text "\n", .block 2 [loop],
        .block 3 [.expr (.ident "x")]] ∧
      LaidOut 1 body ∧
      ∀ inner nested, Inset.block inner nested ∈ Stmt.insetsOf 1 body →
        LaidOut inner nested ∧ Encloses (renderBlock 1 body) 1 inner nested := by
  intro loop callback init body
  have h : Plain isInline (Stmt.verbatimOf body) := by decide
  exact ⟨h, rfl, renderBlock_laidOut 1 body h⟩

end Tablewright.Code
