import Tablewright.Proofs.Text.Runs
import Tablewright.Text.Blank

/-! What trimming leaves of a text: all of it but the blanks at its ends. And what is the first word
of a text that goes on with a parenthesis or a blank. -/

namespace Tablewright.Text

variable {cs before after : List Char}

theorem trimStart_eq_self (h : ∀ c ∈ cs.head?, isBlank c = false) : trimStart cs = cs := by
  cases cs with
  | nil => rfl
  | cons c rest => exact List.dropWhile_cons_of_neg (by simpa using h c rfl)

theorem trimEnd_eq_self (h : ∀ c ∈ cs.getLast?, isBlank c = false) : trimEnd cs = cs := by
  have hend : cs.reverse.dropWhile isBlank = cs.reverse := trimStart_eq_self (by simpa using h)
  rw [trimEnd, hend, List.reverse_reverse]

theorem trim_eq_self (hfirst : ∀ c ∈ cs.head?, isBlank c = false)
    (hlast : ∀ c ∈ cs.getLast?, isBlank c = false) : trim cs = cs := by
  rw [trim, trimStart_eq_self hfirst, trimEnd_eq_self hlast]

theorem trimStart_blanks (h : ∀ c ∈ before, isBlank c = true) : trimStart before = [] :=
  List.dropWhile_eq_nil_iff.mpr h

theorem trimStart_blanks_append (h : ∀ c ∈ before, isBlank c = true) :
    trimStart (before ++ cs) = trimStart cs :=
  List.dropWhile_append_of_pos h

theorem trimEnd_append_blanks (h : ∀ c ∈ after, isBlank c = true) :
    trimEnd (cs ++ after) = trimEnd cs := by
  rw [trimEnd, List.reverse_append, List.dropWhile_append_of_pos (by simpa using h), trimEnd]

theorem trim_blanks_append (h : ∀ c ∈ before, isBlank c = true) :
    trim (before ++ cs) = trim cs := by
  rw [trim, trimStart_blanks_append h, trim]

/-- Where the whole text is blank, the blanks behind it are among those that trimming drops
first. -/
theorem trim_append_blanks (h : ∀ c ∈ after, isBlank c = true) : trim (cs ++ after) = trim cs := by
  by_cases hcs : ∀ c ∈ cs, isBlank c = true
  · rw [trim_blanks_append hcs, trim, trimStart_blanks h, trim, trimStart_blanks hcs]
  · have hdrop : (cs.dropWhile isBlank).isEmpty = false := by
      rwa [List.isEmpty_eq_false_iff, ne_eq, List.dropWhile_eq_nil_iff]
    have hstart : trimStart (cs ++ after) = trimStart cs ++ after := by
      unfold trimStart
      rw [List.dropWhile_append, hdrop, if_neg Bool.false_ne_true]
    rw [trim, hstart, trimEnd_append_blanks h, trim]

/-- A text that neither begins nor ends with a blank keeps what it holds, whatever follows. -/
theorem trim_append (hne : cs ≠ []) (hfirst : ∀ c ∈ cs.head?, isBlank c = false)
    (hlast : ∀ c ∈ cs.getLast?, isBlank c = false) (rest : List Char) :
    trim (cs ++ rest) = cs ++ trimEnd rest := by
  have hstart : trimStart (cs ++ rest) = cs ++ rest := by
    obtain ⟨c, tail, rfl⟩ := List.exists_cons_of_ne_nil hne
    exact trimStart_eq_self hfirst
  rw [trim, hstart]
  by_cases hrest : ∀ c ∈ rest, isBlank c = true
  · have hnil : trimEnd rest = [] := by
      rw [← List.nil_append rest, trimEnd_append_blanks hrest]
      rfl
    rw [trimEnd_append_blanks hrest, trimEnd_eq_self hlast, hnil, List.append_nil]
  · have hdrop : (rest.reverse.dropWhile isBlank).isEmpty = false := by
      rw [List.isEmpty_eq_false_iff, ne_eq, List.dropWhile_eq_nil_iff]
      simpa using hrest
    simp [trimEnd, List.dropWhile_append, hdrop]

theorem trimEnd_prefix (cs : List Char) : trimEnd cs <+: cs := by
  have hsuffix := List.reverse_prefix.mpr (List.dropWhile_suffix (l := cs.reverse) isBlank)
  rwa [List.reverse_reverse] at hsuffix

/-- What trimming drops is blank. -/
theorem exists_eq_trim (cs : List Char) : ∃ before after, cs = before ++ trim cs ++ after ∧
    (∀ c ∈ before, isBlank c = true) ∧ ∀ c ∈ after, isBlank c = true := by
  let rest := trimStart cs
  have hstart : cs = cs.takeWhile isBlank ++ rest := (List.takeWhile_append_dropWhile).symm
  have hend : rest = trimEnd rest ++ (rest.reverse.takeWhile isBlank).reverse := by
    rw [trimEnd, ← List.reverse_append, List.takeWhile_append_dropWhile, List.reverse_reverse]
  refine ⟨cs.takeWhile isBlank, (rest.reverse.takeWhile isBlank).reverse, ?_, ?_, ?_⟩
  · rw [List.append_assoc, trim, ← hend, ← hstart]
  · exact fun c hc => List.mem_takeWhile_imp hc
  · exact fun c hc => List.mem_takeWhile_imp (List.mem_reverse.mp hc)

theorem isBlank_or_mem_trim {cs : List Char} {c : Char} (h : c ∈ cs) :
    isBlank c = true ∨ c ∈ trim cs := by
  obtain ⟨before, after, hcs, hbefore, hafter⟩ := exists_eq_trim cs
  rw [hcs] at h
  rcases List.mem_append.mp h with h | h
  · rcases List.mem_append.mp h with h | h
    · exact .inl (hbefore c h)
    · exact .inr h
  · exact .inl (hafter c h)

theorem trim_eq_nil_iff {cs : List Char} : trim cs = [] ↔ ∀ c ∈ cs, isBlank c = true := by
  constructor
  · intro htrim c hc
    rcases isBlank_or_mem_trim hc with hblank | hmem
    · exact hblank
    · rw [htrim] at hmem
      cases hmem
  · intro hblank
    rw [trim, trimStart_blanks hblank]
    rfl

/-! ## First words -/

/-- What ends the word that a text begins with. -/
def endsFirstWord (c : Char) : Bool := c == '(' || isAsciiBlank c

theorem takeWhile_firstWord {word rest : List Char} (hword : ∀ c ∈ word, endsFirstWord c = false)
    (hrest : ∀ c ∈ rest.head?, endsFirstWord c = true) :
    (word ++ rest).takeWhile (!endsFirstWord ·) = word :=
  takeWhile_run (fun c hc => by rw [hword c hc]; rfl) fun c hc => by rw [hrest c hc]; rfl

end Tablewright.Text
