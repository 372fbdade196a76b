import Mathlib.Data.Bool.AllAny
import Tablewright.Proofs.Sql.Identifier

/-! A qualified name is read back part by part: it is cut at the dots between its parts, however
these are written. Dots, blanks and other quotes that stand inside quotes are text, and the blanks
around a part belong to none. -/

namespace Tablewright.Sql

open Text

/-! ## Cutting at dots -/

section Dots

variable {inside : Option Char} {c q : Char} {cs rest init : List Char}

/-- The quote that is open behind a character. -/
def openAfter (inside : Option Char) (c : Char) : Option Char :=
  if isNameQuote c then if inside = some c then none else if inside.isNone then some c else inside
  else inside

theorem openAfter_of_not_isNameQuote (h : isNameQuote c = false) : openAfter inside c = inside := by
  simp [openAfter, h]

/-- Between quotes only the quote that opened them ends them. -/
theorem openAfter_of_ne (h : c ≠ q) : openAfter (some q) c = some q := by
  simp [openAfter, Ne.symm h]

theorem splitDots_ne_nil (inside : Option Char) (cs : List Char) : splitDots inside cs ≠ [] := by
  cases cs with
  | nil => exact List.cons_ne_nil [] []
  | cons c rest =>
    unfold splitDots
    split
    · exact List.cons_ne_nil _ _
    · dsimp only
      split <;> exact List.cons_ne_nil _ _

theorem splitDots_dot (rest : List Char) :
    splitDots none ('.' :: rest) = [] :: splitDots none rest := by
  simp [splitDots]

theorem splitDots_cons (h : (c = '.' && inside.isNone) = false) (rest : List Char) :
    splitDots inside (c :: rest) = (splitDots (openAfter inside c) rest).modifyHead (c :: ·) := by
  obtain ⟨part, parts, hrest⟩ :=
    List.exists_cons_of_ne_nil (splitDots_ne_nil (openAfter inside c) rest)
  rw [hrest, splitDots, if_neg (by simp [h])]
  unfold openAfter at hrest
  simp only [hrest, List.modifyHead_cons]

/-- The text is not cut, and no quote is open behind it. -/
def Uncut (cs : List Char) : Prop :=
  ∀ rest, splitDots none (cs ++ rest) = (splitDots none rest).modifyHead (cs ++ ·)

theorem Uncut.append {ds : List Char} (hcs : Uncut cs) (hds : Uncut ds) : Uncut (cs ++ ds) := by
  intro rest
  rw [List.append_assoc, hcs, hds, List.modifyHead_modifyHead]
  congr 1
  funext part
  exact (List.append_assoc cs ds part).symm

/-- Text without dots and quotes. -/
theorem uncut_of_bare (h : ∀ c ∈ cs, c ≠ '.' ∧ isNameQuote c = false) : Uncut cs := by
  intro rest
  induction cs with
  | nil => exact (congrFun List.modifyHead_id (splitDots none rest)).symm
  | cons c tail ih =>
    obtain ⟨⟨hdot, hquote⟩, htail⟩ := List.forall_mem_cons.mp h
    rw [List.cons_append, splitDots_cons (by simp [hdot]), openAfter_of_not_isNameQuote hquote,
      ih htail, List.modifyHead_modifyHead]
    rfl

/-- Behind an open quote nothing is cut up to the same quote. -/
theorem splitDots_quoted (h : q ∉ cs) (hq : isNameQuote q = true) (rest : List Char) :
    splitDots (some q) (cs ++ q :: rest) =
      (splitDots none rest).modifyHead (cs ++ q :: ·) := by
  induction cs with
  | nil =>
    have hclosed : openAfter (some q) q = none := by simp [openAfter, hq]
    rw [List.nil_append, splitDots_cons (by simp), hclosed]
    rfl
  | cons c tail ih =>
    rw [List.mem_cons, not_or] at h
    rw [List.cons_append, splitDots_cons (by simp), openAfter_of_ne (Ne.symm h.1), ih h.2,
      List.modifyHead_modifyHead]
    rfl

theorem uncut_quoted (h : q ∉ cs) (hq : isNameQuote q = true) : Uncut (q :: (cs ++ [q])) := by
  intro rest
  have hdot : q ≠ '.' := by
    rintro rfl
    cases hq
  have hopened : openAfter none q = some q := by simp [openAfter, hq]
  have htext : q :: (cs ++ [q]) ++ rest = q :: (cs ++ q :: rest) := by simp
  rw [htext, splitDots_cons (by simp [hdot]), hopened, splitDots_quoted h hq,
    List.modifyHead_modifyHead]
  congr 1
  funext part
  simp

theorem splitDots_of_uncut (h : Uncut cs) : splitDots none cs = [cs] := by
  have hend := h []
  rw [List.append_nil] at hend
  rw [hend]
  exact congrArg ([·]) (List.append_nil cs)

/-- Texts that are not cut themselves are cut at the dots between them. -/
theorem splitDots_intercalate {pieces : List (List Char)} (hne : pieces ≠ [])
    (h : ∀ piece ∈ pieces, Uncut piece) : splitDots none (['.'].intercalate pieces) = pieces := by
  induction pieces with
  | nil => exact absurd rfl hne
  | cons piece others ih =>
    obtain ⟨hpiece, hothers⟩ := List.forall_mem_cons.mp h
    cases others with
    | nil => rw [List.intercalate_singleton, splitDots_of_uncut hpiece]
    | cons next others =>
      rw [List.intercalate_cons_cons, List.append_assoc, hpiece, List.singleton_append,
        splitDots_dot, ih (List.cons_ne_nil next others) hothers]
      exact congrArg (· :: next :: others) (List.append_nil piece)

theorem splitDots_of_notMem (h : '.' ∉ cs) (inside : Option Char) : splitDots inside cs = [cs] := by
  induction cs generalizing inside with
  | nil => rfl
  | cons c rest ih =>
    rw [List.mem_cons, not_or] at h
    rw [splitDots_cons (by simp [Ne.symm h.1]), ih h.2]
    rfl

/-- What stands behind a text without being cut itself belongs to the last part, whatever quote is
open there. -/
theorem exists_splitDots_append {after : List Char} (h : '.' ∉ after) (inside : Option Char)
    (cs : List Char) : ∃ parts last, splitDots inside cs = parts ++ [last] ∧
      splitDots inside (cs ++ after) = parts ++ [last ++ after] := by
  induction cs generalizing inside with
  | nil => exact ⟨[], [], rfl, splitDots_of_notMem h inside⟩
  | cons c rest ih =>
    cases hcut : c = '.' && inside.isNone with
    | true =>
      obtain ⟨hdot, hnone⟩ := Bool.and_eq_true_iff.mp hcut
      obtain rfl := of_decide_eq_true hdot
      obtain rfl := Option.isNone_iff_eq_none.mp hnone
      obtain ⟨parts, last, hrest, hafter⟩ := ih none
      refine ⟨[] :: parts, last, ?_, ?_⟩
      · rw [splitDots_dot, hrest, List.cons_append]
      · rw [List.cons_append, splitDots_dot, hafter, List.cons_append]
    | false =>
      obtain ⟨parts, last, hrest, hafter⟩ := ih (openAfter inside c)
      cases parts with
      | nil =>
        refine ⟨[], c :: last, ?_, ?_⟩
        · rw [splitDots_cons hcut, hrest]
          rfl
        · rw [List.cons_append, splitDots_cons hcut, hafter]
          rfl
      | cons first parts =>
        refine ⟨(c :: first) :: parts, last, ?_, ?_⟩
        · rw [splitDots_cons hcut, hrest]
          rfl
        · rw [List.cons_append, splitDots_cons hcut, hafter]
          rfl

end Dots

/-! ## Blanks around a name -/

section Blanks

variable {before after : List Char}

theorem ne_dot_of_isBlank {c : Char} (h : isBlank c = true) : c ≠ '.' := by
  rintro rfl
  exact absurd h (by decide)

theorem isNameQuote_of_isBlank {c : Char} (h : isBlank c = true) : isNameQuote c = false := by
  rw [← Bool.not_eq_true]
  intro hquote
  rw [isBlank_of_isNameQuote hquote] at h
  cases h

theorem uncut_blanks (h : ∀ c ∈ before, isBlank c = true) : Uncut before :=
  uncut_of_bare fun c hc => ⟨ne_dot_of_isBlank (h c hc), isNameQuote_of_isBlank (h c hc)⟩

theorem splitQualified_blanks_append (h : ∀ c ∈ before, isBlank c = true) (name : List Char) :
    splitQualified (before ++ name) = splitQualified name := by
  unfold splitQualified
  rw [uncut_blanks h]
  cases splitDots none name with
  | nil => rfl
  | cons first parts =>
    rw [List.modifyHead_cons, List.map_cons, trim_blanks_append h, List.map_cons]

theorem splitQualified_append_blanks (h : ∀ c ∈ after, isBlank c = true) (name : List Char) :
    splitQualified (name ++ after) = splitQualified name := by
  have hdot : '.' ∉ after := fun hmem => ne_dot_of_isBlank (h '.' hmem) rfl
  obtain ⟨parts, last, hname, hafter⟩ := exists_splitDots_append hdot none name
  unfold splitQualified
  rw [hname, hafter, List.map_append, List.map_append]
  simp only [List.map_cons, trim_append_blanks h]

/-- Trimming a name changes none of its parts. -/
theorem splitQualified_trim (name : List Char) :
    splitQualified (trim name) = splitQualified name := by
  obtain ⟨before, after, hname, hbefore, hafter⟩ := exists_eq_trim name
  calc splitQualified (trim name)
    _ = splitQualified (before ++ trim name) := (splitQualified_blanks_append hbefore _).symm
    _ = splitQualified (before ++ trim name ++ after) :=
      (splitQualified_append_blanks hafter _).symm
    _ = splitQualified name := by rw [← hname]

end Blanks

/-! ## Written names -/

/-- An identifier in a qualified name, with what stands around it. -/
structure Part where
  before : List Char
  name : Identifier
  after : List Char

namespace Part

/-- Between quotes that it does not hold an identifier may have any text. Alone it has neither dots
nor quotes, and no blanks at its ends. Blanks may stand around both. -/
structure IsRegular (p : Part) : Prop where
  quoted : ∀ q, p.name.quote = some q → isNameQuote q = true ∧ q ∉ p.name.text.toList
  bare : p.name.quote = none → ∀ c ∈ p.name.text.toList, c ≠ '.' ∧ isNameQuote c = false
  first : p.name.quote = none → ∀ c ∈ p.name.text.toList.head?, isBlank c = false
  last : p.name.quote = none → ∀ c ∈ p.name.text.toList.getLast?, isBlank c = false
  before : ∀ c ∈ p.before, isBlank c = true
  after : ∀ c ∈ p.after, isBlank c = true

def render (p : Part) : List Char := p.before ++ p.name.render.toList ++ p.after

variable {p : Part}

theorem IsRegular.uncut (h : p.IsRegular) : Uncut p.render := by
  have hname : Uncut p.name.render.toList := by
    unfold Identifier.render
    split
    · rename_i q hquote
      obtain ⟨hq, htext⟩ := h.quoted q hquote
      rw [Sql.quoted, escapeQuotes_of_notMem htext, String.toList_ofList]
      exact uncut_quoted htext hq
    · rename_i hquote
      exact uncut_of_bare (h.bare hquote)
  exact ((uncut_blanks h.before).append hname).append (uncut_blanks h.after)

theorem IsRegular.unquote_trim (h : p.IsRegular) :
    unquote (trim p.render) = p.name.text.toList := by
  rw [render, trim_append_blanks h.after, trim_blanks_append h.before, Identifier.render]
  split
  · rename_i q hquote
    obtain ⟨hq, htext⟩ := h.quoted q hquote
    have hblank := isBlank_of_isNameQuote hq
    rw [Sql.quoted, escapeQuotes_of_notMem htext, String.toList_ofList, trim_eq_self]
    · exact unquote_quoted hq _
    · simp [hblank]
    · rw [List.getLast?_concat]
      simp [hblank]
  · rename_i hquote
    rw [trim_eq_self (h.first hquote) (h.last hquote)]
    exact unquote_of_bare fun c hc => (h.bare hquote c hc).2

end Part

/-- The parts with dots between them. -/
def qualified (parts : List Part) : List Char := ['.'].intercalate (parts.map Part.render)

theorem splitQualified_qualified {parts : List Part} (hne : parts ≠ [])
    (h : ∀ p ∈ parts, p.IsRegular) :
    splitQualified (qualified parts) = parts.map (·.name.text.toList) := by
  have huncut : ∀ piece ∈ parts.map Part.render, Uncut piece := by
    intro piece hpiece
    obtain ⟨p, hp, rfl⟩ := List.mem_map.mp hpiece
    exact (h p hp).uncut
  have hpieces : splitDots none (qualified parts) = parts.map Part.render :=
    splitDots_intercalate (by simpa using hne) huncut
  rw [splitQualified, hpieces, List.map_map]
  exact List.map_congr_left fun p hp => (h p hp).unquote_trim

theorem relationName_eq (name : List Char) :
    relationName name = (splitQualified name).getLast?.getD [] := by
  rw [relationName, splitQualified_trim]

/-- Names are read back from their written forms: all parts of a qualified name and its last one,
and an identifier in front of whatever may follow it in the column of an index. -/
theorem writtenNames_readBack :
    (∀ (parts : List Part) (hne : parts ≠ []), (∀ p ∈ parts, p.IsRegular) →
      splitQualified (qualified parts) = parts.map (·.name.text.toList) ∧
        relationName (qualified parts) = (parts.getLast hne).name.text.toList) ∧
    ∀ (id : Identifier) (rest : List Char), id.IsSimple →
      (id.quote = none → id.text ≠ "" ∧ ∀ c ∈ rest.head?, endsFirstWord c = true) →
      indexColumnName (id.render.toList ++ rest) = id.text.toList := by
  constructor
  · intro parts hne h
    have hparts := splitQualified_qualified hne h
    refine ⟨hparts, ?_⟩
    rw [relationName_eq, hparts, List.getLast?_map, List.getLast?_eq_some_getLast hne]
    rfl
  · intro id rest hsimple hbare
    obtain ⟨text, quote⟩ := id
    cases quote with
    | some q =>
      obtain ⟨hq, htext⟩ := hsimple
      have hwritten : (quoted q text).toList ++ rest = q :: (text.toList ++ q :: rest) := by
        simp [quoted, escapeQuotes_of_notMem htext]
      exact hwritten ▸ indexColumnName_quoted hq htext rest
    | none =>
      obtain ⟨hne, hrest⟩ := hbare rfl
      exact indexColumnName_bare (by simpa using hne) hsimple hrest

/-- Parts in every form. Quotes hold dots, blanks and the other quote, and blanks that are not ASCII
stand around the first part. -/
def archiveParts : List Part := [
  ⟨[' '], ⟨"my.db", some backtick⟩, ['\u2003']⟩,
  ⟨[], ⟨" \x60old\x60 (2) ", some '"'⟩, []⟩,
  ⟨['\t'], ⟨"user items", none⟩, ['\n']⟩]

def archiveName : String := " \x60my.db\x60\u2003.\" \x60old\x60 (2) \".\tuser items\n"

theorem archiveParts_readBack :
    (archiveParts ≠ [] ∧ ∀ p ∈ archiveParts, p.IsRegular) ∧
      (splitQualified archiveName.toList =
        ["my.db".toList, " \x60old\x60 (2) ".toList, "user items".toList] ∧
      relationName archiveName.toList = "user items".toList) ∧
      indexColumnName "\x60the name\"\x60(10) DESC".toList = "the name\"".toList ∧
      indexColumnName "rarity ASC".toList = "rarity".toList := by
  have hne : archiveParts ≠ [] := List.cons_ne_nil _ _
  have hregular : ∀ p ∈ archiveParts, p.IsRegular := by
    have hblanks : ∀ gap : List Char, gap.all isBlank = true → ∀ c ∈ gap, isBlank c = true :=
      fun _ => List.all_eq_true.mp
    have hfirst : "user items".toList.head? = some 'u' := by decide +kernel
    have hlast : "user items".toList.getLast? = some 's' := by decide +kernel
    simp only [archiveParts, List.forall_mem_cons]
    refine ⟨⟨?_, nofun, nofun, nofun, hblanks _ (by decide), hblanks _ (by decide +kernel)⟩,
      ⟨?_, nofun, nofun, nofun, nofun, nofun⟩,
      ⟨nofun, ?_, ?_, ?_, hblanks _ (by decide), hblanks _ (by decide)⟩, nofun⟩
    · rintro q ⟨⟩
      decide +kernel
    · rintro q ⟨⟩
      decide +kernel
    · exact fun _ => List.all_iff_forall_prop.mp (by decide +kernel)
    · rw [hfirst]
      rintro _ _ ⟨⟩
      decide
    · rw [hlast]
      rintro _ _ ⟨⟩
      decide
  have hwritten : qualified archiveParts = archiveName.toList := by decide +kernel
  have hquoted : (Identifier.render ⟨"the name\"", some backtick⟩).toList ++ "(10) DESC".toList =
      "\x60the name\"\x60(10) DESC".toList := by decide +kernel
  have hbare : "rarity".toList ++ " ASC".toList = "rarity ASC".toList := by decide +kernel
  have hsimple : Identifier.IsSimple ⟨"rarity", none⟩ := by
    unfold Identifier.IsSimple
    exact List.all_iff_forall_prop.mp (by decide +kernel)
  have hspace : " ASC".toList.head? = some ' ' := by decide +kernel
  refine ⟨⟨hne, hregular⟩, ?_, ?_, ?_⟩
  · rw [← hwritten]
    exact writtenNames_readBack.1 archiveParts hne hregular
  · rw [← hquoted]
    exact writtenNames_readBack.2 ⟨"the name\"", some backtick⟩ _
      ⟨by decide, by decide +kernel⟩ nofun
  · rw [← hbare]
    refine writtenNames_readBack.2 ⟨"rarity", none⟩ _ hsimple fun _ => ⟨by decide, ?_⟩
    rw [hspace]
    rintro _ ⟨⟩
    decide

end Tablewright.Sql
