import Tablewright.Proofs.Text.Blank
import Tablewright.Proofs.Text.Letters
import Tablewright.Proofs.Text.Split
import Tablewright.Schema.ColumnType

/-! The words of a written type, where `unsigned` is looked for. A text is taken apart at one
character: at the end of a word, or at a mark that `unsigned` does not hold. The first and the last
word of a part may go on in its neighbours, so they are told apart from the words within. -/

namespace Tablewright.ColumnType

open Text

/-- What ends a word. -/
def endsWord (c : Char) : Bool := isAsciiBlank c || c == ')'

def isUnsignedWord (word : List Char) : Bool := word.map Char.toLower == "unsigned".toList

/-- Whether a word behind the first one is `unsigned`. -/
def saysBehind (cs : List Char) : Bool := (splitAt endsWord cs).tail.any isUnsignedWord

/-- Whether a word before the last one is `unsigned`. -/
def saysBefore (cs : List Char) : Bool := (splitAt endsWord cs).dropLast.any isUnsignedWord

/-- Whether a word between the first and the last is `unsigned`. -/
def saysWithin (cs : List Char) : Bool := (splitAt endsWord cs).dropLast.tail.any isUnsignedWord

theorem saysUnsigned_eq (cs : List Char) :
    saysUnsigned cs = (splitAt endsWord cs).any isUnsignedWord := rfl

variable {c : Char} {word before after : List Char}

/-- A type is read from its written form without the blanks around it. -/
theorem parse_of_trim {cs : List Char} (h : trim cs = cs) (column : String) :
    parse (.ofList cs) column = (declaredSize (keywordOf cs) cs column).map fun size =>
      ⟨.ofList (keywordOf cs), size, saysUnsigned cs⟩ := by
  unfold parse
  simp only [String.toList_ofList, h]

/-! ## Single words -/

theorem isAlpha_of_isUnsignedWord (h : isUnsignedWord word = true) :
    ∀ c ∈ word, c.isAlpha = true := by
  intro c hc
  have hletter : c.toLower ∈ "unsigned".toList := eq_of_beq h ▸ List.mem_map_of_mem hc
  have hletters : ∀ c ∈ "unsigned".toList, c.isAlpha = true :=
    List.all_eq_true.mp (by decide +kernel)
  exact isAlpha_of_toLower (hletters _ hletter)

theorem isUnsignedWord_of_mem (hc : c ∈ word) (h : c.isAlpha = false) :
    isUnsignedWord word = false := by
  rw [← Bool.not_eq_true]
  intro hword
  rw [isAlpha_of_isUnsignedWord hword c hc] at h
  cases h

theorem endsWord_of_isAlpha (h : c.isAlpha = true) : endsWord c = false := by
  have hc : (!endsWord c) = true := of_isAlpha (p := fun c => !endsWord c) (by decide +kernel) h
  simpa using hc

theorem splitAt_of_isAlpha (h : ∀ c ∈ word, c.isAlpha = true) :
    splitAt endsWord word = [word] :=
  splitAt_of_forall_neg fun c hc => endsWord_of_isAlpha (h c hc)

/-- No word of a text without letters is the word. -/
theorem isUnsignedWord_of_mem_splitAt (h : ∀ c ∈ before, c.isAlpha = false)
    (hword : word ∈ splitAt endsWord before) : ¬ isUnsignedWord word = true := by
  cases word with
  | nil => decide
  | cons c rest =>
    have hc := subset_of_mem_splitAt hword List.mem_cons_self
    rw [isUnsignedWord_of_mem List.mem_cons_self (h c hc)]
    exact Bool.false_ne_true

theorem saysBehind_of_not_isAlpha (h : ∀ c ∈ before, c.isAlpha = false) :
    saysBehind before = false :=
  List.any_eq_false.mpr fun _ hword => isUnsignedWord_of_mem_splitAt h (List.mem_of_mem_tail hword)

theorem saysWithin_of_not_isAlpha (h : ∀ c ∈ before, c.isAlpha = false) :
    saysWithin before = false :=
  List.any_eq_false.mpr fun _ hword =>
    isUnsignedWord_of_mem_splitAt h (List.dropLast_subset _ (List.mem_of_mem_tail hword))

/-! ## Texts around one character -/

theorem saysUnsigned_append_cons (hc : endsWord c = true) (before after : List Char) :
    saysUnsigned (before ++ c :: after) = (saysUnsigned before || saysUnsigned after) := by
  rw [saysUnsigned_eq, splitAt_append_cons hc, List.any_append]
  rfl

/-- Blanks in front of a text are no words. -/
theorem saysUnsigned_blanks_append (h : ∀ c ∈ before, isAsciiBlank c = true) (after : List Char) :
    saysUnsigned (before ++ after) = saysUnsigned after := by
  induction before with
  | nil => rw [List.nil_append]
  | cons c rest ih =>
    obtain ⟨hc, hrest⟩ := List.forall_mem_cons.mp h
    have hends : endsWord c = true := by simp [endsWord, hc]
    have hnone : saysUnsigned [] = false := by decide
    have hcut := saysUnsigned_append_cons hends [] (rest ++ after)
    rwa [hnone, Bool.false_or, ih hrest, List.nil_append] at hcut

theorem saysBehind_append_cons (hc : endsWord c = true) (before after : List Char) :
    saysBehind (before ++ c :: after) = (saysBehind before || saysUnsigned after) := by
  unfold saysBehind
  rw [splitAt_append_cons hc, List.tail_append_of_ne_nil (splitAt_ne_nil endsWord before),
    List.any_append]
  rfl

/-- The words around a mark: it joins the last word before it and the first behind it to one that
is not `unsigned`. -/
theorem exists_words_mark (hc : c.isAlpha = false) (hword : endsWord c = false)
    (before after : List Char) : ∃ pieces last joined others,
      splitAt endsWord before = pieces ++ [last] ∧ (splitAt endsWord after).tail = others ∧
        splitAt endsWord (before ++ c :: after) = pieces ++ joined :: others ∧
        isUnsignedWord joined = false := by
  obtain ⟨pieces, last, hbefore, happend⟩ := exists_splitAt_append endsWord before
  obtain ⟨first, others, hafter, hcons⟩ := exists_splitAt_cons hword after
  refine ⟨pieces, last, last ++ c :: first, others, hbefore, ?_, ?_, ?_⟩
  · rw [hafter, List.tail_cons]
  · rw [happend, hcons, List.modifyHead_cons]
  · exact isUnsignedWord_of_mem (List.mem_append_right last List.mem_cons_self) hc

theorem saysUnsigned_append_mark (hc : c.isAlpha = false) (hword : endsWord c = false)
    (before after : List Char) :
    saysUnsigned (before ++ c :: after) = (saysBefore before || saysBehind after) := by
  obtain ⟨pieces, last, joined, others, hbefore, hafter, hboth, hjoined⟩ :=
    exists_words_mark hc hword before after
  rw [saysUnsigned_eq, saysBefore, saysBehind, hbefore, hafter, hboth, List.dropLast_concat,
    List.any_append, List.any_cons, hjoined, Bool.false_or]

theorem saysBehind_append_mark (hc : c.isAlpha = false) (hword : endsWord c = false)
    (before after : List Char) :
    saysBehind (before ++ c :: after) = (saysWithin before || saysBehind after) := by
  obtain ⟨pieces, last, joined, others, hbefore, hafter, hboth, hjoined⟩ :=
    exists_words_mark hc hword before after
  unfold saysBehind saysWithin
  rw [hbefore, hafter, hboth, List.dropLast_concat]
  cases pieces with
  | nil => rfl
  | cons piece pieces =>
    rw [List.cons_append, List.tail_cons, List.tail_cons, List.any_append, List.any_cons, hjoined,
      Bool.false_or]

/-- Text without letters in front of a mark says nothing. -/
theorem saysBehind_not_isAlpha_append_mark (h : ∀ x ∈ before, x.isAlpha = false)
    (hc : c.isAlpha = false) (hword : endsWord c = false) (after : List Char) :
    saysBehind (before ++ c :: after) = saysBehind (c :: after) := by
  have hmark := saysBehind_append_mark hc hword [] after
  rw [List.nil_append, saysWithin_of_not_isAlpha (by simp)] at hmark
  rw [saysBehind_append_mark hc hword, saysWithin_of_not_isAlpha h, hmark]

/-! ## Keywords -/

section Keywords

variable {keyword rest : List Char}

theorem keywordOf_append (h : ∀ c ∈ keyword, c.isAlpha = true)
    (hrest : ∀ c ∈ rest.head?, endsFirstWord c = true) :
    keywordOf (keyword ++ rest) = keyword.map Char.toLower := by
  have hkeyword : ∀ c ∈ keyword, endsFirstWord c = false := by
    intro c hc
    have hletter : (!endsFirstWord c) = true :=
      of_isAlpha (p := fun c => !endsFirstWord c) (by decide +kernel) (h c hc)
    simpa using hletter
  exact congrArg (List.map Char.toLower) (takeWhile_firstWord hkeyword hrest)

theorem notMem_of_isAlpha (h : ∀ c ∈ keyword, c.isAlpha = true) : '(' ∉ keyword := by
  intro hmem
  have hletter := h '(' hmem
  revert hletter
  decide

/-- The keyword goes on in the first word of the list, so that one is passed over. -/
theorem saysUnsigned_keyword_append (h : ∀ c ∈ keyword, c.isAlpha = true) (rest : List Char) :
    saysUnsigned (keyword ++ '(' :: rest) = saysBehind rest := by
  have hbefore : saysBefore keyword = false := by
    rw [saysBefore, splitAt_of_isAlpha h]
    rfl
  rw [saysUnsigned_append_mark (by decide) (by decide), hbefore, Bool.false_or]

end Keywords

/-! ## The word within a text -/

/-- The word `unsigned` stands in the text, in any case and with the end of a word on both sides. -/
def HoldsUnsigned (cs : List Char) : Prop :=
  ∃ before left word right after, cs = before ++ left :: (word ++ right :: after) ∧
    endsWord left = true ∧ word.map Char.toLower = "unsigned".toList ∧ endsWord right = true

theorem saysWithin_iff {cs : List Char} : saysWithin cs = true ↔ HoldsUnsigned cs := by
  unfold saysWithin
  rw [List.any_eq_true]
  constructor
  · rintro ⟨word, hmem, hword⟩
    obtain ⟨pieces, last, hpieces⟩ :=
      (List.eq_nil_or_concat (splitAt endsWord cs)).resolve_left (splitAt_ne_nil endsWord cs)
    rw [List.concat_eq_append] at hpieces
    rw [hpieces, List.dropLast_concat] at hmem
    obtain ⟨first, others, rfl⟩ : ∃ first others, pieces = first :: others := by
      cases pieces with
      | nil => cases hmem
      | cons first others => exact ⟨first, others, rfl⟩
    obtain ⟨inner, outer, rfl⟩ := List.append_of_mem hmem
    have hleft : splitAt endsWord cs = (first :: inner) ++ (word :: outer ++ [last]) := by
      rw [hpieces]
      simp
    obtain ⟨before, left, rest, rfl, hcut, _, hrest⟩ :=
      exists_cut_of_splitAt hleft (List.cons_ne_nil _ _) (List.cons_ne_nil _ _)
    have hright : splitAt endsWord rest = [word] ++ (outer ++ [last]) := hrest
    obtain ⟨text, right, after, rfl, hcut', htext, _⟩ :=
      exists_cut_of_splitAt hright (List.cons_ne_nil _ _) (by simp)
    obtain rfl := eq_of_splitAt_eq_singleton htext
    exact ⟨before, left, text, right, after, rfl, hcut, eq_of_beq hword, hcut'⟩
  · rintro ⟨before, left, word, right, after, rfl, hleft, hword, hright⟩
    have hself : isUnsignedWord word = true := beq_iff_eq.mpr hword
    obtain ⟨first, inner, hbefore⟩ := List.exists_cons_of_ne_nil (splitAt_ne_nil endsWord before)
    obtain ⟨outer, last, hafter⟩ :=
      (List.eq_nil_or_concat (splitAt endsWord after)).resolve_left (splitAt_ne_nil endsWord after)
    have hwords : splitAt endsWord (before ++ left :: (word ++ right :: after)) =
        first :: (inner ++ word :: outer) ++ [last] := by
      rw [splitAt_append_cons hleft, splitAt_append_cons hright,
        splitAt_of_isAlpha (isAlpha_of_isUnsignedWord hself), hbefore, hafter]
      simp
    refine ⟨word, ?_, hself⟩
    rw [hwords, List.dropLast_concat, List.tail_cons]
    exact List.mem_append_right inner List.mem_cons_self

end Tablewright.ColumnType
