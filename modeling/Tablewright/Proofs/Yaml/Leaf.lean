import Tablewright.Proofs.Yaml.Escaped
import Tablewright.Proofs.Yaml.Reads

/-! Leaves of blocks: words, keys, written strings and lists without items. -/

namespace Tablewright.Yaml.Reads

open Reading

/-- Whether a node begins with the text that is neither a block collection nor a block scalar and
has no properties. -/
def startsLeaf : List Char → Bool
  | [] => false
  | c :: rest =>
    isSolid c && !(isGapIndicator c && atGap rest) && !"#&!|>".toList.contains c

variable {fuel least : Nat} {sameColumn : Bool} {c c' c'' : Cursor} {node : Node} {t : Lines}

theorem isBefore_of_startsLeaf (h : startsLeaf c.rest = true) :
    c.isBefore ['&'] = false ∧ c.isBefore ['!'] = false ∧ c.isBefore ['|'] = false ∧
      c.isBefore ['>'] = false := by
  cases hrest : c.rest with
  | nil => simp [Cursor.isBefore, hrest]
  | cons d rest =>
    rw [hrest] at h
    simp [startsLeaf] at h
    simp [Cursor.isBefore, hrest, h]

theorem isMark_of_startsLeaf (h : startsLeaf c.rest = true) {mark : Char}
    (hmark : isGapIndicator mark = true) : c.isMark mark = false := by
  cases hrest : c.rest with
  | nil => simp [Cursor.isMark, hrest]
  | cons d rest =>
    rw [hrest] at h
    rw [Bool.eq_false_iff]
    intro heq
    simp only [Cursor.isMark, hrest, Bool.and_eq_true, beq_iff_eq] at heq
    obtain ⟨rfl, hgap⟩ := heq
    simp [startsLeaf, hmark, hgap] at h

theorem startsLeaf_of_solid {d : Char} {rest : List Char} (hsolid : isSolid d = true)
    (hindicator : isIndicator d = false) (hgap : (isGapIndicator d && atGap rest) = false) :
    startsLeaf (d :: rest) = true := by
  have hmarks : ∀ e ∈ "#&!|>".toList, isIndicator e = true := List.all_eq_true.mp rfl
  have hd : "#&!|>".toList.contains d = false := by
    rw [← Bool.not_eq_true, List.contains_iff_mem]
    intro hmem
    rw [hmarks d hmem] at hindicator
    cases hindicator
  rw [startsLeaf, hsolid, hgap, hd]
  rfl

theorem startsPlain_of_solid {d : Char} {rest : List Char} (hsolid : isSolid d = true)
    (hindicator : isIndicator d = false) (hgap : (isGapIndicator d && atGap rest) = false) :
    Scalar.startsPlain false (d :: rest) = true := by
  obtain ⟨hblank, hbreak⟩ := isSolid_iff.mp hsolid
  cases hd : isGapIndicator d <;> simp_all [Scalar.startsPlain]

/-- What a word begins with begins a plain scalar. -/
theorem starts_word {word : List Char} (hword : ∀ c ∈ word, isWordChar c = true) (hne : word ≠ [])
    (rest : List Char) :
    startsLeaf (word ++ rest) = true ∧ Scalar.startsPlain false (word ++ rest) = true := by
  cases word with
  | nil => exact absurd rfl hne
  | cons d word =>
    have hd := hword d List.mem_cons_self
    obtain ⟨hindicator, hinner, _⟩ := isInner_of_isWordChar hd
    have hgap : (isGapIndicator d && atGap (word ++ rest)) = false := by rw [hinner]; rfl
    exact ⟨startsLeaf_of_solid (isSolid_of_isWordChar hd) hindicator hgap,
      startsPlain_of_solid (isSolid_of_isWordChar hd) hindicator hgap⟩

/-! ### Leaves -/

theorem leaf_plain {text : List Char} (hstart : Scalar.startsPlain false c.rest = true)
    (h : Scalar.plain? false least fuel c = some (text, c')) :
    Reads (leaf (fuel + 1) false least) c (.scalar .plain (.ofList text)) c' := by
  rw [leaf]
  refine cursor.bind ?_
  cases hrest : c.rest with
  | nil => rw [hrest] at hstart; cases hstart
  | cons d rest =>
    rw [hrest] at hstart
    have hindicator : isIndicator d = false := by
      simp only [Scalar.startsPlain, Bool.and_eq_true, Bool.not_eq_true'] at hstart
      exact hstart.1.2
    have hother : ∀ e after, isIndicator e = true → d :: rest ≠ e :: after := by
      intro e after he heq
      rw [← (List.cons.inj heq).1, hindicator] at he
      cases he
    split
    · next heq => exact absurd heq (hother _ _ rfl)
    · next heq => exact absurd heq (hother _ _ rfl)
    · next heq => exact absurd heq (hother _ _ rfl)
    · next heq => exact absurd heq (hother _ _ rfl)
    · next heq => exact absurd heq (hother _ _ rfl)
    · rw [if_pos hstart]
      exact scalar h

theorem leaf_single {text : List Char} {rest : List Char} (hrest : c.rest = '\x27' :: rest)
    (h : Scalar.singleQuoted? fuel c = some (text, c')) :
    Reads (leaf (fuel + 1) false least) c (.scalar .single (.ofList text)) c' := by
  rw [leaf]
  refine cursor.bind ?_
  rw [hrest]
  exact scalar h

theorem leaf_double {text : List Char} {rest : List Char} (hrest : c.rest = '"' :: rest)
    (h : Scalar.doubleQuoted? fuel c = some (text, c')) :
    Reads (leaf (fuel + 1) false least) c (.scalar .double (.ofList text)) c' := by
  rw [leaf]
  refine cursor.bind ?_
  rw [hrest]
  exact scalar h

/-- A word before a colon. -/
theorem leaf_key {key rest : List Char} (hkey : ∀ c ∈ key, isWordChar c = true) (hne : key ≠ [])
    (hrest : c.rest = key ++ ':' :: rest) (hgap : atGap rest = true) :
    Reads (leaf (fuel + 2) false least) c (.scalar .plain (.ofList key))
      ⟨c.line, c.column + key.length, false, ':' :: rest⟩ := by
  refine leaf_plain ?_ (Scalar.plain?_key hkey hgap hrest)
  rw [hrest]
  exact (starts_word hkey hne _).2

/-- A list without items. -/
theorem leaf_nil {rest : List Char} (hrest : c.rest = '[' :: ']' :: rest) :
    Reads (leaf (fuel + 2) false least) c (.sequence []) ⟨c.line, c.column + 2, false, rest⟩ := by
  rw [leaf]
  refine cursor.bind ?_
  rw [hrest]
  refine (pass 1 false).bind ?_
  have hskip : Cursor.skip true { c.advance 1 with isFresh := false } =
      ⟨c.line, c.column + 1, false, ']' :: rest⟩ := by
    simp [Cursor.advance, Cursor.skip, hrest, Cursor.skipFrom, isBreak]
  have hitems : Reads (flowItems (fuel + 1) least) { c.advance 1 with isFresh := false } []
      ⟨c.line, c.column + 2, false, rest⟩ := by
    rw [flowItems]
    refine (skip true).bind ?_
    rw [hskip]
    refine cursor.bind ?_
    rw [if_pos (by simp [Cursor.isBefore])]
    exact (pass 1 false).bind pure
  exact hitems.bind pure

/-! ### Written scalars -/

/-- Text that needs no quotes, before the end of its line. -/
theorem starts_unquoted {cs : List Char} (h : Written.Unquoted cs) (hne : cs ≠ [])
    (rest : List Char) :
    startsLeaf (cs ++ '\n' :: rest) = true ∧
      Scalar.startsPlain false (cs ++ '\n' :: rest) = true := by
  cases cs with
  | nil => exact absurd rfl hne
  | cons d cs =>
    have hstart := h.start
    simp only [Written.startsStructure, Bool.or_eq_false_iff] at hstart
    have hgap : (isGapIndicator d && atGap (cs ++ '\n' :: rest)) = false := by
      rw [← hstart.1.1.2]
      cases cs with
      | nil => rfl
      | cons e cs => rfl
    have hsolid : isSolid d = true := by
      rw [isSolid_iff]
      refine ⟨?_, h.unbroken d List.mem_cons_self⟩
      rw [Bool.eq_false_iff]
      intro hblank
      have hspace := Written.eq_space_of_isPrintable (h.clean d List.mem_cons_self) hblank
      exact h.head (by rw [hspace]; rfl)
    exact ⟨startsLeaf_of_solid hsolid hstart.1.1.1 hgap,
      startsPlain_of_solid hsolid hstart.1.1.1 hgap⟩

theorem leaf_unquoted {cs : List Char} (h : Written.Unquoted cs) (hne : cs ≠ [])
    (ht : Token t.text) (hleast : t.indent < least) (hcolumn : least ≤ c.column)
    (hrest : c.rest = cs ++ '\n' :: t.chars) (hfuel : c.rest.length ≤ fuel) :
    ∃ c', Reads (leaf (fuel + 1) false least) c (.scalar .plain (.ofList cs)) c' ∧ c'.Leaves t := by
  have hlength : cs.length < fuel := by
    rw [hrest, List.length_append, List.length_cons] at hfuel
    omega
  obtain ⟨line, hread⟩ := Scalar.plain?_unquoted h hne ht hleast fuel c hlength hcolumn hrest
  refine ⟨_, leaf_plain ?_ hread, .inl ⟨line, rfl⟩⟩
  rw [hrest]
  exact (starts_unquoted h hne _).2

/-- The ways in which a string of one line is written. -/
theorem style_cases {s : String} (h : '\n' ∉ s.toList) :
    (Written.style s = .plain ∧ Plain.standsForOther s = false ∧ Written.Unquoted s.toList) ∨
      (Written.style s = .single ∧ Written.fitsSingle s.toList = true) ∨
      Written.style s = .double := by
  have hfeed : s.toList.contains '\n' = false := by
    rw [← Bool.not_eq_true, List.contains_iff_mem]
    exact h
  unfold Written.style
  dsimp only
  rw [hfeed, if_neg (by decide)]
  split
  · next hplain =>
    rw [Bool.and_eq_true, Bool.not_eq_true'] at hplain
    exact .inl ⟨rfl, hplain.1, Written.fitsPlain_iff.mp hplain.2⟩
  · split
    · next hsingle => exact .inr (.inl ⟨rfl, hsingle⟩)
    · exact .inr (.inr rfl)

theorem toList_ne_nil {s : String} (h : Plain.standsForOther s = false) : s.toList ≠ [] := by
  intro heq
  obtain rfl : s = "" := String.toList_inj.mp heq
  exact absurd h (by decide)

/-- After the closing quote of a string comes the end of its line. -/
theorem leaf_quoted {s : String} {style : Style} (hstart : startsLeaf c.rest = true)
    (hread : Reads (leaf fuel false least) c (.scalar style (.ofList s.toList)) c')
    (hnext : c'.rest = '\n' :: t.chars) :
    startsLeaf c.rest = true ∧
      ∃ c', Reads (leaf fuel false least) c (.scalar style s) c' ∧ c'.Leaves t := by
  rw [String.ofList_toList] at hread
  exact ⟨hstart, c', hread, .inr hnext⟩

/-- A string is read as what was written. -/
theorem leaf_text {s : String} {column : Nat} (h : '\n' ∉ s.toList) (ht : Token t.text)
    (hleast : t.indent < least) (hcolumn : least ≤ c.column)
    (hrest : c.rest = Written.line column s ++ t.chars) (hfuel : c.rest.length ≤ fuel) :
    startsLeaf c.rest = true ∧ ∃ c', Reads (leaf (fuel + 1) false least) c
      (.scalar (Written.style s) s) c' ∧ c'.Leaves t := by
  have hline : ∀ written, Written.line column s = written ++ ['\n'] →
      c.rest = written ++ '\n' :: t.chars := by
    intro written heq
    rw [hrest, heq, List.append_assoc]
    rfl
  rcases style_cases h with ⟨hstyle, hother, hunquoted⟩ | ⟨hstyle, hfits⟩ | hstyle
  · have hcur := hline s.toList (by simp [Written.line, hstyle])
    obtain ⟨c', hread, hleaves⟩ :=
      leaf_unquoted hunquoted (toList_ne_nil hother) ht hleast hcolumn hcur hfuel
    rw [String.ofList_toList] at hread
    rw [hstyle]
    refine ⟨?_, c', hread, hleaves⟩
    rw [hcur]
    exact (starts_unquoted hunquoted (toList_ne_nil hother) _).1
  · have hcur := hline (Written.singleQuoted (column + 2) s.toList) (by simp [Written.line, hstyle])
    have hlength := congrArg List.length hcur
    rw [List.length_append] at hlength
    obtain ⟨c', hread, hnext⟩ := Scalar.singleQuoted?_written hfits h (by rfl) (by omega) fuel c
      (by omega) hcur
    rw [Scalar.singleQuoted_eq, List.cons_append] at hcur
    rw [hstyle]
    exact leaf_quoted (by rw [hcur]; rfl) (leaf_single hcur hread) hnext
  · have hcur := hline (Written.doubleQuoted s.toList) (by simp [Written.line, hstyle])
    have hlength := congrArg List.length hcur
    rw [List.length_append] at hlength
    obtain ⟨c', hread, hnext⟩ := Scalar.doubleQuoted?_written (by rfl) fuel c (by omega) hcur
    rw [Written.doubleQuoted, List.cons_append, List.cons_append] at hcur
    rw [hstyle]
    exact leaf_quoted (by rw [hcur]; rfl) (leaf_double hcur hread) hnext

end Tablewright.Yaml.Reads
