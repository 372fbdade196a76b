import Tablewright.Proofs.Text.Blank
import Tablewright.Schema.Declaration

/-! An identifier is told from its written form, where it is the column of an index: between quotes
it ends at the second quote, whether that one closes it or not, and alone it ends at a blank or a
parenthesis. -/

namespace Tablewright

open Text

namespace Sql

/-- The identifier stands between quotes that it does not hold, or alone and without blanks, an
opening parenthesis and quotes. -/
def Identifier.IsSimple (id : Identifier) : Prop :=
  match id.quote with
  | some q => isNameQuote q = true ∧ q ∉ id.text.toList
  | none => ∀ c ∈ id.text.toList, isBlank c = false ∧ c ≠ '(' ∧ isNameQuote c = false

variable {q : Char} {cs : List Char}

theorem isNameQuote_iff : isNameQuote q = true ↔ q = backtick ∨ q = '"' := by
  simp [isNameQuote]

theorem isBlank_of_isNameQuote (h : isNameQuote q = true) : isBlank q = false := by
  rcases isNameQuote_iff.mp h with rfl | rfl <;> decide

/-! ## Quoted identifiers -/

theorem escapeQuotes_of_notMem (h : q ∉ cs) (afterBackslash : Bool) :
    escapeQuotes q afterBackslash cs = cs := by
  induction cs generalizing afterBackslash with
  | nil => rfl
  | cons c rest ih =>
    rw [List.mem_cons, not_or] at h
    unfold escapeQuotes
    rw [if_neg (Ne.symm h.1), ih h.2]

theorem throughQuote_append (h : q ∉ cs) (rest : List Char) :
    throughQuote q (cs ++ q :: rest) = cs ++ [q] := by
  induction cs with
  | nil => rw [List.nil_append, throughQuote, if_pos rfl, List.nil_append]
  | cons c cs ih =>
    rw [List.mem_cons, not_or] at h
    rw [List.cons_append, throughQuote, if_neg (Ne.symm h.1), ih h.2, List.cons_append]

theorem unquoteBy?_quoted (q : Char) (cs : List Char) :
    unquoteBy? q (q :: (cs ++ [q])) = some cs := by
  rw [unquoteBy?, List.getLast?_concat, List.dropLast_concat]
  simp

theorem unquoteBy?_of_ne {c : Char} (h : c ≠ q) : unquoteBy? q (c :: cs) = none := by
  simp [unquoteBy?, h]

theorem unquote_quoted (hq : isNameQuote q = true) (cs : List Char) :
    unquote (q :: (cs ++ [q])) = cs := by
  unfold unquote
  rcases isNameQuote_iff.mp hq with rfl | rfl
  · rw [unquoteBy?_quoted]
    rfl
  · rw [unquoteBy?_of_ne (by decide), unquoteBy?_quoted]
    rfl

/-- A quoted identifier, with any text behind it. -/
theorem indexColumnName_quoted (hq : isNameQuote q = true) (h : q ∉ cs) (rest : List Char) :
    indexColumnName (q :: (cs ++ q :: rest)) = cs := by
  have hblank := isBlank_of_isNameQuote hq
  have htrim : trim (q :: (cs ++ q :: rest)) = q :: (cs ++ q :: trimEnd rest) := by
    have hlast : ∀ c ∈ (q :: cs ++ [q]).getLast?, isBlank c = false := by
      rw [List.getLast?_concat]
      simp [hblank]
    have hkeeps := trim_append (List.cons_ne_nil _ _) (by simp [hblank]) hlast rest
    simpa using hkeeps
  unfold indexColumnName
  simp only [htrim, hq, if_true, throughQuote_append h]
  exact unquote_quoted hq cs

/-- The first quote in escaped text stands where the text has its first quote. -/
theorem exists_escapeQuotes_append (q : Char) (afterBackslash : Bool) (cs : List Char) :
    ∃ rest, escapeQuotes q afterBackslash cs ++ [q] = cs.takeWhile (· ≠ q) ++ q :: rest := by
  induction cs generalizing afterBackslash with
  | nil => exact ⟨[], rfl⟩
  | cons c tail ih =>
    unfold escapeQuotes
    by_cases hc : c = q
    · subst hc
      rw [if_pos rfl, List.takeWhile_cons_of_neg (by simp)]
      -- in every case the text begins with the quote
      split
      · exact ⟨_, rfl⟩
      · split
        · exact ⟨_, rfl⟩
        · split
          · exact ⟨_, rfl⟩
          · exact ⟨_, rfl⟩
    · rw [if_neg hc, List.takeWhile_cons_of_pos (by simpa using hc)]
      obtain ⟨rest, hrest⟩ := ih (c == '\\')
      exact ⟨rest, by rw [List.cons_append, hrest, List.cons_append]⟩

/-- Between quotes an identifier is read up to the first of its own quotes. -/
theorem indexColumn_quoted (hq : isNameQuote q = true) (text : String) :
    Declaration.indexColumn ⟨text, some q⟩ = .ofList (text.toList.takeWhile (· ≠ q)) := by
  have hnone : q ∉ text.toList.takeWhile (· ≠ q) := by
    intro hmem
    simpa using List.mem_takeWhile_imp hmem
  obtain ⟨rest, hrest⟩ := exists_escapeQuotes_append q false text.toList
  simp only [Declaration.indexColumn, Identifier.render, quoted, String.toList_ofList,
    List.cons_append, hrest, indexColumnName_quoted hq hnone]

/-! ## Bare identifiers -/

theorem unquote_of_bare (h : ∀ c ∈ cs, isNameQuote c = false) : unquote cs = cs := by
  cases cs with
  | nil => rfl
  | cons c rest =>
    have hc := h c List.mem_cons_self
    have hbacktick : c ≠ backtick := by
      rintro rfl
      exact absurd hc (by decide)
    have hquote : c ≠ '"' := by
      rintro rfl
      exact absurd hc (by decide)
    rw [unquote, unquoteBy?_of_ne hbacktick, unquoteBy?_of_ne hquote]
    rfl

/-- A bare identifier, with nothing behind it or what ends it. -/
theorem indexColumnName_bare (hne : cs ≠ [])
    (h : ∀ c ∈ cs, isBlank c = false ∧ c ≠ '(' ∧ isNameQuote c = false) {rest : List Char}
    (hrest : ∀ c ∈ rest.head?, endsFirstWord c = true) : indexColumnName (cs ++ rest) = cs := by
  have htrim : trim (cs ++ rest) = cs ++ trimEnd rest :=
    trim_append hne (fun c hc => (h c (List.mem_of_mem_head? hc)).1)
      (fun c hc => (h c (List.mem_of_getLast? hc)).1) rest
  have hname : ∀ c ∈ cs, endsFirstWord c = false := by
    intro c hc
    obtain ⟨hblank, hparen, _⟩ := h c hc
    have hascii : isAsciiBlank c = false := by
      rw [← Bool.not_eq_true]
      intro hc
      rw [isBlank_of_isAsciiBlank hc] at hblank
      cases hblank
    simp [endsFirstWord, hparen, hascii]
  -- trimming takes nothing from the front of what follows
  have hends : ∀ c ∈ (trimEnd rest).head?, endsFirstWord c = true := by
    intro c hc
    obtain ⟨after, hafter⟩ := trimEnd_prefix rest
    refine hrest c ?_
    rw [← hafter, List.head?_append, Option.mem_def.mp hc]
    rfl
  obtain ⟨first, tail, rfl⟩ := List.exists_cons_of_ne_nil hne
  unfold indexColumnName
  rw [htrim]
  simp only [List.cons_append, (h first List.mem_cons_self).2.2, Bool.false_eq_true, if_false]
  exact (congrArg unquote (takeWhile_firstWord hname hends)).trans
    (unquote_of_bare fun c hc => (h c hc).2.2)

/-! ## Columns of an index -/

theorem takeWhile_ne_eq_self : cs.takeWhile (· ≠ q) = cs ↔ q ∉ cs := by
  rw [List.takeWhile_eq_self_iff]
  constructor
  · intro h hmem
    exact of_decide_eq_true (h q hmem) rfl
  · intro h c hc
    refine decide_eq_true ?_
    rintro rfl
    exact h hc

/-- A simple identifier is read back from the column of an index. -/
theorem indexColumn_of_isSimple {id : Identifier} (h : id.IsSimple) :
    Declaration.indexColumn id = id.text := by
  obtain ⟨text, quote⟩ := id
  cases quote with
  | some q =>
    obtain ⟨hq, htext⟩ := h
    rw [indexColumn_quoted hq, takeWhile_ne_eq_self.mpr htext, String.ofList_toList]
  | none =>
    unfold Declaration.indexColumn Identifier.render
    by_cases hne : text.toList = []
    · rw [hne, ← String.ofList_toList (s := text), hne]
      rfl
    · have hnothing : ∀ c ∈ ([] : List Char).head?, endsFirstWord c = true := nofun
      have hread := indexColumnName_bare hne h hnothing
      rw [List.append_nil] at hread
      rw [hread, String.ofList_toList]

end Sql

end Tablewright
