import Mathlib.Data.Bool.AllAny
import Tablewright.Proofs.Schema.Brackets
import Tablewright.Proofs.Schema.TypeWords
import Tablewright.Proofs.Text.Blank
import Tablewright.Proofs.Text.Decimal

/-! Types with numbers as modifiers. Each scan of the written type, for the keyword, the list, its
first entry and the attribute, finds the part that it looks for, so the type is read as it was
meant, or refused with the modifier that is no number. -/

namespace Tablewright.ColumnType

open Text

/-! ## Written types -/

/-- The modifiers of a type. -/
structure ModifierList where
  first : List Char
  further : List (List Char)

/-- What may follow a type, and the blanks before it. -/
structure Attribute where
  gap : List Char
  word : List Char

/-- A type as it can be written. -/
structure Spelling where
  keyword : List Char
  modifiers : Option ModifierList
  unsigned : Option Attribute

namespace ModifierList

def render (list : ModifierList) : List Char := [','].intercalate (list.first :: list.further)

/-- What has a meaning of its own in a list. -/
def listMarks : List Char := ['\x27', '"', ',', '(', ')']

/-- The first entry may be any text without marks, and the others are numerals. -/
structure IsRegular (list : ModifierList) : Prop where
  first : ∀ c ∈ list.first, c ∉ listMarks
  further : ∀ entry ∈ list.further, IsNumeral (trim entry)

/-- What the first modifier stands for as a size, which is nothing if it is blank. -/
def HasSize (list : ModifierList) (n : Nat) : Prop :=
  trim list.first = [] ∧ n = 0 ∨ StandsFor (trim list.first) n

end ModifierList

namespace Attribute

def render (a : Attribute) : List Char := a.gap ++ a.word

/-- The word `unsigned`, in any case. -/
structure IsRegular (a : Attribute) : Prop where
  gap : ∀ c ∈ a.gap, isAsciiBlank c = true
  word : a.word.map Char.toLower = "unsigned".toList

end Attribute

namespace Spelling

/-- The modifiers in their parentheses. -/
def listed (s : Spelling) : List Char :=
  match s.modifiers with
  | some list => '(' :: (list.render ++ [')'])
  | none => []

/-- What follows the keyword. -/
def rest (s : Spelling) : List Char := s.listed ++ s.unsigned.elim [] Attribute.render

def render (s : Spelling) : List Char := s.keyword ++ s.rest

/-- The keyword is a word of letters that is read for itself, and what follows it is regular. -/
structure IsRegular (s : Spelling) : Prop where
  nonempty : s.keyword ≠ []
  letters : ∀ c ∈ s.keyword, c.isAlpha = true
  other : s.keyword.map Char.toLower ∉ ["enum".toList, "set".toList, "unsigned".toList]
  modifiers : ∀ list ∈ s.modifiers, list.IsRegular
  unsigned : ∀ a ∈ s.unsigned, a.IsRegular
  /-- Only a closing parenthesis may stand directly before the attribute. -/
  apart : s.modifiers = none → ∀ a ∈ s.unsigned, a.gap ≠ []

def HasSize (s : Spelling) (n : Nat) : Prop :=
  match s.modifiers with
  | some list => list.HasSize n
  | none => n = 0

end Spelling

/-! ## The modifiers -/

namespace ModifierList

variable {list : ModifierList}

theorem mem_render {c : Char} (h : c ∈ list.render) :
    c ∈ list.first ∨ c = ',' ∨ ∃ entry ∈ list.further, c ∈ entry := by
  obtain ⟨first, further⟩ := list
  unfold render at h
  induction further generalizing first with
  | nil =>
    rw [List.intercalate_singleton] at h
    exact .inl h
  | cons next further ih =>
    rw [List.intercalate_cons_cons, List.append_assoc] at h
    rcases List.mem_append.mp h with h | h
    · exact .inl h
    · rcases List.mem_append.mp h with h | h
      · exact .inr (.inl (List.mem_singleton.mp h))
      · rcases ih next h with h | h | ⟨entry, hentry, h⟩
        · exact .inr (.inr ⟨next, List.mem_cons_self, h⟩)
        · exact .inr (.inl h)
        · exact .inr (.inr ⟨entry, List.mem_cons_of_mem next hentry, h⟩)

theorem isBlank_or_isDigit {entry : List Char} (h : IsNumeral (trim entry)) {c : Char}
    (hc : c ∈ entry) : isBlank c = true ∨ c.isDigit = true :=
  (isBlank_or_mem_trim hc).imp_right (h.digits c)

theorem notMem_listMarks {c : Char} (h : isBlank c = true ∨ c.isDigit = true) :
    c ∉ listMarks := by
  intro hc
  have hmarks : ∀ c ∈ listMarks, isBlank c = false ∧ c.isDigit = false :=
    List.all_iff_forall_prop.mp (by decide +kernel)
  obtain ⟨hblank, hdigit⟩ := hmarks c hc
  rcases h with h | h
  · rw [hblank] at h
    cases h
  · rw [hdigit] at h
    cases h

theorem IsRegular.passes (h : list.IsRegular) : Passes list.render := by
  have hmarks : ∀ c ∉ listMarks, c ≠ '\x27' ∧ c ≠ '(' ∧ c ≠ ')' := by
    intro c hc
    simp only [listMarks, List.mem_cons, not_or] at hc
    exact ⟨hc.1, hc.2.2.2.1, hc.2.2.2.2.1⟩
  apply passes_of_forall_ne
  intro c hc
  rcases mem_render hc with hc | rfl | ⟨entry, hentry, hc⟩
  · exact hmarks c (h.first c hc)
  · decide
  · exact hmarks c (notMem_listMarks (isBlank_or_isDigit (h.further entry hentry) hc))

theorem IsRegular.firstModifier_render (h : list.IsRegular) :
    firstModifier list.render = trim list.first := by
  have hfirst : ∀ c ∈ list.first, (c != ',') = true := by
    intro c hc
    have hmark := h.first c hc
    refine bne_iff_ne.mpr ?_
    rintro rfl
    exact hmark (by decide)
  have htake : list.render.takeWhile (· != ',') = list.first := by
    unfold render
    cases list.further with
    | nil => rw [List.intercalate_singleton, List.takeWhile_eq_self_iff.mpr hfirst]
    | cons next further =>
      rw [List.intercalate_cons_cons, List.append_assoc, List.takeWhile_append_of_pos hfirst]
      simp
  rw [firstModifier, htake]

/-- A list that begins with a number or with nothing holds no letters. -/
theorem IsRegular.not_isAlpha (h : list.IsRegular) {n : Nat} (hsize : list.HasSize n) :
    ∀ c ∈ list.render, c.isAlpha = false := by
  have hfirst : ∀ c ∈ trim list.first, c.isAlpha = false := by
    intro c hc
    rcases hsize with ⟨hnil, _⟩ | hstands
    · rw [hnil] at hc
      cases hc
    · rcases hstands.plus_or_digit c hc with rfl | hdigit
      · decide
      · exact not_isAlpha_of_isDigit hdigit
  intro c hc
  rcases mem_render hc with hc | rfl | ⟨entry, hentry, hc⟩
  · exact (isBlank_or_mem_trim hc).elim not_isAlpha_of_isBlank (hfirst c)
  · decide
  · exact (isBlank_or_isDigit (h.further entry hentry) hc).elim not_isAlpha_of_isBlank
      not_isAlpha_of_isDigit

/-- The first modifier is read as the size that it has, if that fits a word. -/
theorem IsRegular.sizeOf?_eq_some (h : list.IsRegular) {size : UInt64} :
    sizeOf? (trim list.first) = some size ↔
      ∃ n < UInt64.size, list.HasSize n ∧ size = .ofNat n := by
  unfold HasSize
  cases hfirst : trim list.first with
  | nil =>
    rw [sizeOf?, Option.some.injEq]
    constructor
    · rintro rfl
      exact ⟨0, by decide, .inl ⟨rfl, rfl⟩, rfl⟩
    · rintro ⟨n, _, ⟨_, rfl⟩ | hstands, rfl⟩
      · rfl
      · exact absurd rfl hstands.ne_nil
  | cons c rest =>
    have hc : c ∉ listMarks := by
      obtain ⟨before, after, hlist, _⟩ := exists_eq_trim list.first
      refine h.first c ?_
      rw [hlist, hfirst]
      simp
    have hbare : c ≠ '\x27' ∧ c ≠ '"' := by
      simp only [listMarks, List.mem_cons, not_or] at hc
      exact ⟨hc.1, hc.2.1⟩
    rw [sizeOf?, if_neg (by simp [hbare]), signedWord64?_eq_some]
    simp

end ModifierList

/-! ## The attribute -/

namespace Attribute

variable {a : Attribute}

theorem IsRegular.isUnsignedWord (h : a.IsRegular) : isUnsignedWord a.word = true :=
  beq_iff_eq.mpr h.word

theorem IsRegular.isAlpha (h : a.IsRegular) : ∀ c ∈ a.word, c.isAlpha = true :=
  isAlpha_of_isUnsignedWord h.isUnsignedWord

theorem IsRegular.word_ne_nil (h : a.IsRegular) : a.word ≠ [] := by
  intro hnil
  have hword := h.word
  rw [hnil] at hword
  revert hword
  decide +kernel

/-- The attribute says it, however many blanks stand before it. -/
theorem IsRegular.saysUnsigned_render (h : a.IsRegular) : saysUnsigned a.render = true := by
  rw [render, saysUnsigned_blanks_append h.gap, saysUnsigned_eq, splitAt_of_isAlpha h.isAlpha,
    List.any_cons, h.isUnsignedWord, Bool.true_or]

theorem IsRegular.notMem (h : a.IsRegular) : '(' ∉ a.render := by
  intro hmem
  rcases List.mem_append.mp hmem with hmem | hmem
  · have hblank := h.gap '(' hmem
    revert hblank
    decide
  · exact notMem_of_isAlpha h.isAlpha hmem

end Attribute

/-! ## The whole type -/

namespace Spelling

variable {s : Spelling}

theorem IsRegular.keywordOf_render (h : s.IsRegular) :
    keywordOf s.render = s.keyword.map Char.toLower := by
  refine keywordOf_append h.letters ?_
  unfold rest listed
  cases hlist : s.modifiers with
  | some list =>
    rintro _ ⟨⟩
    decide
  | none =>
    cases ha : s.unsigned with
    | none => nofun
    | some a =>
      obtain ⟨c, gap, hgap⟩ := List.exists_cons_of_ne_nil (h.apart hlist a ha)
      have hc := (h.unsigned a ha).gap c (hgap ▸ List.mem_cons_self)
      show ∀ c ∈ (a.gap ++ a.word).head?, endsFirstWord c = true
      rw [hgap]
      rintro _ ⟨⟩
      simp [endsFirstWord, hc]

theorem IsRegular.modifiers?_render (h : s.IsRegular) :
    modifiers? s.render = s.modifiers.map ModifierList.render := by
  have hkeyword : '(' ∉ s.keyword := notMem_of_isAlpha h.letters
  unfold render rest listed
  cases hlist : s.modifiers with
  | some list =>
    have hpasses := (h.modifiers list hlist).passes
    have hread := modifiers?_of_passes hkeyword hpasses (s.unsigned.elim [] Attribute.render)
    simpa using hread
  | none =>
    refine modifiers?_of_notMem ?_
    intro hmem
    rcases List.mem_append.mp hmem with hmem | hmem
    · exact hkeyword hmem
    · cases ha : s.unsigned with
      | none => simp [ha] at hmem
      | some a =>
        rw [ha] at hmem
        exact (h.unsigned a ha).notMem hmem

/-- The keyword is one word and not the attribute, and the list says nothing if its first entry is a
size, so only the attribute is left. -/
theorem IsRegular.saysUnsigned_render (h : s.IsRegular) {n : Nat} (hsize : s.HasSize n) :
    saysUnsigned s.render = s.unsigned.isSome := by
  have hkeyword : isUnsignedWord s.keyword = false := by
    have hother := h.other
    simp only [List.mem_cons, not_or] at hother
    exact beq_eq_false_iff_ne.mpr hother.2.2.1
  have hattribute : saysUnsigned (s.unsigned.elim [] Attribute.render) = s.unsigned.isSome := by
    cases ha : s.unsigned with
    | none => decide
    | some a => exact (h.unsigned a ha).saysUnsigned_render
  unfold render rest listed
  cases hlist : s.modifiers with
  | some list =>
    have hnumbers : list.HasSize n := by
      unfold HasSize at hsize
      rwa [hlist] at hsize
    have hletters := (h.modifiers list hlist).not_isAlpha hnumbers
    have htext : s.keyword ++ ('(' :: (list.render ++ [')']) ++
        s.unsigned.elim [] Attribute.render) =
          s.keyword ++ '(' :: (list.render ++ ')' :: s.unsigned.elim [] Attribute.render) := by
      simp
    rw [htext, saysUnsigned_keyword_append h.letters, saysBehind_append_cons (by decide),
      saysBehind_of_not_isAlpha hletters, Bool.false_or, hattribute]
  | none =>
    have hsays : saysUnsigned s.keyword = false := by
      rw [saysUnsigned_eq, splitAt_of_isAlpha h.letters, List.any_cons, hkeyword, List.any_nil,
        Bool.false_or]
    rw [List.nil_append, ← hattribute]
    cases ha : s.unsigned with
    | none =>
      rw [Option.elim_none, List.append_nil, hsays]
      decide
    | some a =>
      obtain ⟨c, gap, hgap⟩ := List.exists_cons_of_ne_nil (h.apart hlist a ha)
      have hblanks := (h.unsigned a ha).gap
      rw [hgap] at hblanks
      have hc : endsWord c = true := by simp [endsWord, hblanks c List.mem_cons_self]
      rw [Option.elim_some, Attribute.render, hgap, List.cons_append,
        saysUnsigned_append_cons hc, hsays, Bool.false_or, ← List.cons_append,
        saysUnsigned_blanks_append hblanks,
        saysUnsigned_blanks_append (List.forall_mem_cons.mp hblanks).2]

theorem IsRegular.trim_render (h : s.IsRegular) : trim s.render = s.render := by
  have hletters : ∀ c ∈ s.keyword, isBlank c = false :=
    fun c hc => isBlank_of_isAlpha (h.letters c hc)
  refine trim_eq_self ?_ ?_
  · obtain ⟨c, keyword, hkeyword⟩ := List.exists_cons_of_ne_nil h.nonempty
    unfold render
    rw [hkeyword, List.cons_append, List.head?_cons]
    rintro _ ⟨⟩
    exact hletters c (hkeyword ▸ List.mem_cons_self)
  · unfold render rest
    rw [List.getLast?_append, List.getLast?_append]
    cases ha : s.unsigned with
    | some a =>
      have hword := (h.unsigned a ha).word_ne_nil
      have hblank : ∀ c ∈ a.word, isBlank c = false :=
        fun c hc => isBlank_of_isAlpha ((h.unsigned a ha).isAlpha c hc)
      rw [Option.elim_some, Attribute.render, List.getLast?_append,
        List.getLast?_eq_some_getLast hword]
      rintro _ ⟨⟩
      exact hblank _ (List.getLast_mem hword)
    | none =>
      unfold listed
      cases s.modifiers with
      | some list =>
        show ∀ c ∈ (('(' :: list.render ++ [')']).getLast?).or s.keyword.getLast?, isBlank c = false
        rw [List.getLast?_concat]
        rintro _ ⟨⟩
        decide
      | none =>
        intro c hc
        exact hletters c (List.mem_of_getLast? (by simpa using hc))

/-- What the modifiers come to, whatever else the type says. -/
theorem IsRegular.declaredSize_render (h : s.IsRegular) (column : String) :
    (∀ n < UInt64.size, s.HasSize n →
      declaredSize (s.keyword.map Char.toLower) s.render column = .ok (.ofNat n)) ∧
    ((∀ n < UInt64.size, ¬ s.HasSize n) → ∃ list, s.modifiers = some list ∧
      declaredSize (s.keyword.map Char.toLower) s.render column =
        .error (.invalidTypeModifier column (.ofList (trim list.first)))) := by
  have hother := h.other
  simp only [List.mem_cons, not_or] at hother
  unfold declaredSize HasSize
  rw [h.modifiers?_render]
  cases hlist : s.modifiers with
  | none =>
    refine ⟨?_, fun hnone => absurd rfl (hnone 0 (by decide))⟩
    rintro n _ rfl
    rfl
  | some list =>
    have hregular := h.modifiers list hlist
    simp only [Option.map_some, hother.1, hother.2.1, decide_false, Bool.or_self,
      Bool.false_eq_true, if_false, hregular.firstModifier_render]
    constructor
    · intro n hlt hsize
      rw [hregular.sizeOf?_eq_some.mpr ⟨n, hlt, hsize, rfl⟩]
    · intro hnone
      cases hsize : sizeOf? (trim list.first) with
      | none => exact ⟨list, rfl, rfl⟩
      | some size =>
        obtain ⟨n, hlt, hn, _⟩ := hregular.sizeOf?_eq_some.mp hsize
        exact absurd hn (hnone n hlt)

end Spelling

/-- A written type is read as it was meant: the keyword in lower case, the value of the first
modifier and whether the attribute is there. A first modifier that is neither blank nor a number
below the bound is the error. In no text are more parentheses closed than opened where the modifiers
are searched. -/
theorem parse_decodes :
    (∀ (s : Spelling) (column : String), s.IsRegular →
      (∀ n < UInt64.size, s.HasSize n → parse (.ofList s.render) column =
        .ok ⟨.ofList (s.keyword.map Char.toLower), .ofNat n, s.unsigned.isSome⟩) ∧
      ((∀ n < UInt64.size, ¬ s.HasSize n) → ∃ list, s.modifiers = some list ∧
        parse (.ofList s.render) column =
          .error (.invalidTypeModifier column (.ofList (trim list.first))))) ∧
    ∀ text p, p <+: searched text → 0 ≤ depthAfter p := by
  refine ⟨?_, fun text p => depthAfter_nonneg text⟩
  intro s column h
  obtain ⟨hsized, hrefused⟩ := h.declaredSize_render column
  rw [parse_of_trim h.trim_render, h.keywordOf_render]
  constructor
  · intro n hlt hsize
    rw [hsized n hlt hsize, h.saysUnsigned_render hsize]
    rfl
  · intro hnone
    obtain ⟨list, hlist, herror⟩ := hrefused hnone
    refine ⟨list, hlist, ?_⟩
    rw [herror]
    rfl

/-- A signed modifier among blanks, a second one, and the attribute in mixed case. -/
def price : Spelling :=
  ⟨"Decimal".toList, some ⟨" +10\u00a0".toList, [" 2 ".toList]⟩,
    some ⟨['\t'], "Unsigned".toList⟩⟩

/-- The least number that does not fit a word. -/
def wide : Spelling := ⟨"INT".toList, some ⟨" 18446744073709551616".toList, []⟩, none⟩

theorem price_wide_decode :
    (price.IsRegular ∧ price.HasSize 10) ∧ (wide.IsRegular ∧ ∀ n < UInt64.size, ¬ wide.HasSize n) ∧
      parse "Decimal( +10\u00a0, 2 )\tUnsigned" "price" = .ok ⟨"decimal", 10, true⟩ ∧
      parse "INT( 18446744073709551616)" "id" =
        .error (.invalidTypeModifier "id" "18446744073709551616") ∧
      ("('('".toList <+: searched "ENUM('(')".toList ∧ 0 ≤ depthAfter "('('".toList) := by
  have hprice : price.IsRegular := by
    refine ⟨by decide +kernel, List.all_eq_true.mp (by decide +kernel), by decide +kernel,
      ?_, ?_, nofun⟩
    · rintro _ ⟨⟩
      exact ⟨List.all_iff_forall_prop.mp (by decide +kernel),
        List.forall_mem_singleton.mpr (by decide +kernel)⟩
    · rintro _ ⟨⟩
      exact ⟨List.all_eq_true.mp (by decide), by decide +kernel⟩
  have hten : price.HasSize 10 := by
    have hfirst : trim " +10\u00a0".toList = ['+', '1', '0'] := by decide +kernel
    refine .inr ?_
    show StandsFor (trim " +10\u00a0".toList) 10
    rw [hfirst]
    have hdigits : IsNumeral ['1', '0'] := by decide
    exact .signed hdigits
  have hwide : wide.IsRegular := by
    refine ⟨by decide +kernel, List.all_eq_true.mp (by decide +kernel), by decide +kernel,
      ?_, nofun, nofun⟩
    rintro _ ⟨⟩
    exact ⟨List.all_iff_forall_prop.mp (by decide +kernel), nofun⟩
  have hnone : ∀ n < UInt64.size, ¬ wide.HasSize n := by
    have hdigits : trim " 18446744073709551616".toList = (toString UInt64.size).toList := by
      decide +kernel
    have hnumeral : IsNumeral (toString UInt64.size).toList := by decide +kernel
    have hvalue : decimal (toString UInt64.size).toList = UInt64.size := by decide +kernel
    intro n hlt hsize
    change trim " 18446744073709551616".toList = [] ∧ n = 0 ∨ StandsFor (trim _) n at hsize
    rw [hdigits, standsFor_iff_of_isNumeral hnumeral, hvalue] at hsize
    rcases hsize with ⟨hnil, _⟩ | rfl
    · exact hnumeral.nonempty hnil
    · exact Nat.lt_irrefl _ hlt
  have hpriceText : String.ofList price.render = "Decimal( +10\u00a0, 2 )\tUnsigned" := by
    decide +kernel
  have hwideText : String.ofList wide.render = "INT( 18446744073709551616)" := by decide +kernel
  have hprefix : "('('".toList <+: searched "ENUM('(')".toList := by decide +kernel
  refine ⟨⟨hprice, hten⟩, ⟨hwide, hnone⟩, ?_, ?_, hprefix, parse_decodes.2 _ _ hprefix⟩
  · have hread := (parse_decodes.1 price "price" hprice).1 10 (by decide) hten
    rw [hpriceText] at hread
    have hkeyword : String.ofList (price.keyword.map Char.toLower) = "decimal" := by
      decide +kernel
    rw [hread, hkeyword]
    rfl
  · obtain ⟨list, hlist, hread⟩ := (parse_decodes.1 wide "id" hwide).2 hnone
    obtain rfl := Option.some.inj hlist
    have hmodifier : String.ofList (trim " 18446744073709551616".toList) =
        "18446744073709551616" := by decide +kernel
    rw [hwideText] at hread
    exact hread.trans (congrArg (Except.error ∘ SchemaError.invalidTypeModifier "id") hmodifier)

end Tablewright.ColumnType
