import Tablewright.Proofs.Checks
import Tablewright.Proofs.Schema.Brackets
import Tablewright.Proofs.Schema.TypeWords
import Tablewright.Proofs.Text.Blank

/-! Enumerations and sets. Their members may be any text, and the list is found whole whatever they
hold. The word `unsigned` is looked for in the members too, so a type says it that should not. -/

namespace Tablewright.ColumnType

open Text

/-! ## Written members -/

/-- A quote inside quotes is written twice. -/
def doubleQuotes (cs : List Char) : List Char :=
  cs.flatMap fun c => if c = '\x27' then [c, c] else [c]

def enclosed (member : List Char) : List Char := '\x27' :: (doubleQuotes member ++ ['\x27'])

/-- The members with commas between them, and blanks behind the commas. -/
def memberList (gap : List Char) (members : List (List Char)) : List Char :=
  (',' :: gap).intercalate (members.map enclosed)

/-- An enumeration or a set as it is written. -/
def writtenMembers (keyword gap : List Char) (members : List (List Char)) : List Char :=
  keyword ++ '(' :: (memberList gap members ++ [')'])

section Written

variable {c : Char} {keyword gap member : List Char} {members : List (List Char)}

theorem doubleQuotes_cons_quote (cs : List Char) :
    doubleQuotes ('\x27' :: cs) = '\x27' :: '\x27' :: doubleQuotes cs := rfl

theorem doubleQuotes_cons (h : c ≠ '\x27') (cs : List Char) :
    doubleQuotes (c :: cs) = c :: doubleQuotes cs := by
  simp [doubleQuotes, h]

theorem memberList_singleton (gap member : List Char) : memberList gap [member] = enclosed member :=
  List.intercalate_singleton

theorem memberList_cons_cons (gap member next : List Char) (others : List (List Char)) :
    memberList gap (member :: next :: others) =
      enclosed member ++ (',' :: gap ++ memberList gap (next :: others)) := by
  unfold memberList
  rw [List.map_cons, List.map_cons, List.intercalate_cons_cons, List.append_assoc]

theorem exists_memberList_eq (gap : List Char) (hne : members ≠ []) :
    ∃ rest, memberList gap members = '\x27' :: rest := by
  obtain ⟨member, others, rfl⟩ := List.exists_cons_of_ne_nil hne
  cases others with
  | nil => exact ⟨_, memberList_singleton gap member⟩
  | cons next others => exact ⟨_, memberList_cons_cons gap member next others⟩

/-! ## The list is found whole -/

/-- Inside quotes nothing is looked for, and a quote that is written twice opens them again. -/
theorem untilClosed_doubleQuotes (cs rest : List Char) :
    untilClosed 1 true (doubleQuotes cs ++ rest) =
      (untilClosed 1 true rest).map (doubleQuotes cs ++ ·) := by
  induction cs with
  | nil => exact (congrFun Option.map_id _).symm
  | cons c cs ih =>
    by_cases hc : c = '\x27'
    · subst hc
      rw [doubleQuotes_cons_quote]
      simp only [List.cons_append, untilClosed, if_true, Bool.not_true, Bool.not_false, ih,
        Option.map_map]
      rfl
    · rw [doubleQuotes_cons hc]
      simp only [List.cons_append, untilClosed, hc, if_false, Bool.not_true, Bool.and_false,
        Bool.false_eq_true, ih, Option.map_map]
      rfl

theorem passes_enclosed (member : List Char) : Passes (enclosed member) := by
  intro rest
  have htext : enclosed member ++ rest = '\x27' :: (doubleQuotes member ++ '\x27' :: rest) := by
    simp [enclosed]
  have hopen : ∀ cs, untilClosed 1 false ('\x27' :: cs) =
      (untilClosed 1 true cs).map ('\x27' :: ·) := fun cs => by simp [untilClosed]
  have hclose : untilClosed 1 true ('\x27' :: rest) =
      (untilClosed 1 false rest).map ('\x27' :: ·) := by simp [untilClosed]
  rw [htext, hopen, untilClosed_doubleQuotes, hclose, Option.map_map, Option.map_map]
  congr 1
  funext list
  simp [enclosed]

theorem passes_memberList (hgap : ∀ c ∈ gap, isAsciiBlank c = true) (hne : members ≠ []) :
    Passes (memberList gap members) := by
  have hseparator : Passes (',' :: gap) := by
    refine passes_of_forall_ne (List.forall_mem_cons.mpr ⟨by decide, ?_⟩)
    intro c hc
    have hblank := hgap c hc
    refine ⟨?_, ?_, ?_⟩
    all_goals
      rintro rfl
      revert hblank
      decide
  induction members with
  | nil => exact absurd rfl hne
  | cons member others ih =>
    cases others with
    | nil => exact memberList_singleton gap member ▸ passes_enclosed member
    | cons next others =>
      rw [memberList_cons_cons]
      exact (passes_enclosed member).append
        (hseparator.append (ih (List.cons_ne_nil next others)))

end Written

/-! ## The word in the members -/

section Words

variable {gap member : List Char} {members : List (List Char)}

/-- Writing quotes twice leaves the words apart as they are. -/
theorem splitAt_doubleQuotes (cs : List Char) :
    splitAt endsWord (doubleQuotes cs) = (splitAt endsWord cs).map doubleQuotes := by
  induction cs with
  | nil => rfl
  | cons c cs ih =>
    by_cases hc : c = '\x27'
    · subst hc
      have hword : endsWord '\x27' = false := by decide
      obtain ⟨first, words, hwords, hcons⟩ := exists_splitAt_cons hword cs
      rw [doubleQuotes_cons_quote, splitAt_cons_of_neg hword, splitAt_cons_of_neg hword, ih,
        hwords, hcons]
      rfl
    · rw [doubleQuotes_cons hc]
      cases hword : endsWord c with
      | true =>
        rw [splitAt_cons_of_pos hword, splitAt_cons_of_pos hword, ih]
        rfl
      | false =>
        obtain ⟨first, words, hwords, hcons⟩ := exists_splitAt_cons hword cs
        rw [splitAt_cons_of_neg hword, ih, hwords, hcons, List.map_cons, List.map_cons,
          List.modifyHead_cons, doubleQuotes_cons hc]

theorem isUnsignedWord_doubleQuotes (word : List Char) :
    isUnsignedWord (doubleQuotes word) = isUnsignedWord word := by
  by_cases h : '\x27' ∈ word
  · have hdouble : '\x27' ∈ doubleQuotes word :=
      List.mem_flatMap.mpr ⟨'\x27', h, List.mem_cons_self⟩
    rw [isUnsignedWord_of_mem h (by decide), isUnsignedWord_of_mem hdouble (by decide)]
  · have hself : doubleQuotes word = word := by
      induction word with
      | nil => rfl
      | cons c word ih =>
        rw [List.mem_cons, not_or] at h
        rw [doubleQuotes_cons (Ne.symm h.1), ih h.2]
    rw [hself]

theorem saysWithin_doubleQuotes (cs : List Char) :
    saysWithin (doubleQuotes cs) = saysWithin cs := by
  unfold saysWithin
  rw [splitAt_doubleQuotes, ← List.map_dropLast, ← List.map_tail, List.any_map]
  congr 1
  funext word
  exact isUnsignedWord_doubleQuotes word

/-- The words of a member end with its quotes, on both sides. -/
theorem saysBehind_enclosed (member rest : List Char) :
    saysBehind (enclosed member ++ rest) = (saysWithin member || saysBehind rest) := by
  have hmark : '\x27'.isAlpha = false ∧ endsWord '\x27' = false := by decide
  have htext : enclosed member ++ rest =
      [] ++ '\x27' :: (doubleQuotes member ++ '\x27' :: rest) := by simp [enclosed]
  have hnone : saysWithin [] = false := by decide
  rw [htext, saysBehind_append_mark hmark.1 hmark.2, hnone, Bool.false_or,
    saysBehind_append_mark hmark.1 hmark.2, saysWithin_doubleQuotes]

theorem saysBehind_memberList (hgap : ∀ c ∈ gap, isAsciiBlank c = true) (hne : members ≠ []) :
    saysBehind (memberList gap members ++ [')']) = members.any saysWithin := by
  have hend : saysBehind [')'] = false := by decide
  have hseparator : ∀ c ∈ ',' :: gap, c.isAlpha = false := by
    refine List.forall_mem_cons.mpr ⟨by decide, fun c hc => ?_⟩
    exact not_isAlpha_of_isBlank (isBlank_of_isAsciiBlank (hgap c hc))
  induction members with
  | nil => exact absurd rfl hne
  | cons member others ih =>
    cases others with
    | nil =>
      rw [memberList_singleton, saysBehind_enclosed, hend, List.any_cons, List.any_nil]
    | cons next others =>
      have htext : enclosed member ++ (',' :: gap ++ memberList gap (next :: others)) ++ [')'] =
          enclosed member ++ (',' :: gap ++ (memberList gap (next :: others) ++ [')'])) := by simp
      obtain ⟨rest, hrest⟩ := exists_memberList_eq gap (List.cons_ne_nil next others)
      have hskips : saysBehind (',' :: gap ++ '\x27' :: (rest ++ [')'])) =
          saysBehind ('\x27' :: (rest ++ [')'])) :=
        saysBehind_not_isAlpha_append_mark hseparator (by decide) (by decide) _
      rw [memberList_cons_cons, htext, saysBehind_enclosed, List.any_cons,
        ← ih (List.cons_ne_nil next others), hrest]
      exact congrArg (saysWithin member || ·) hskips

end Words

/-! ## The whole type -/

/-- The keyword of an enumeration or a set, in any case. -/
def TakesMembers (keyword : List Char) : Prop :=
  keyword.map Char.toLower = "enum".toList ∨ keyword.map Char.toLower = "set".toList

section Whole

variable {keyword gap : List Char} {members : List (List Char)}

theorem TakesMembers.isAlpha (h : TakesMembers keyword) : ∀ c ∈ keyword, c.isAlpha = true := by
  have hletters : ∀ c ∈ "enum".toList ++ "set".toList, c.isAlpha = true :=
    List.all_eq_true.mp (by decide +kernel)
  intro c hc
  refine isAlpha_of_toLower (hletters c.toLower ?_)
  rcases h with h | h
  · exact List.mem_append_left _ (h ▸ List.mem_map_of_mem hc)
  · exact List.mem_append_right _ (h ▸ List.mem_map_of_mem hc)

theorem TakesMembers.modifiers? (h : TakesMembers keyword) (hgap : ∀ c ∈ gap, isAsciiBlank c = true)
    (hne : members ≠ []) :
    modifiers? (writtenMembers keyword gap members) = some (memberList gap members) :=
  modifiers?_of_passes (notMem_of_isAlpha h.isAlpha) (passes_memberList hgap hne) []

theorem TakesMembers.keywordOf (h : TakesMembers keyword) :
    keywordOf (writtenMembers keyword gap members) = keyword.map Char.toLower := by
  refine keywordOf_append h.isAlpha ?_
  rintro _ ⟨⟩
  decide

theorem TakesMembers.trim (h : TakesMembers keyword) :
    trim (writtenMembers keyword gap members) = writtenMembers keyword gap members := by
  refine trim_eq_self ?_ ?_
  · intro c hc
    unfold writtenMembers at hc
    cases keyword with
    | nil =>
      obtain rfl : '(' = c := by simpa using hc
      decide
    | cons first keyword =>
      obtain rfl : first = c := by simpa using hc
      exact isBlank_of_isAlpha (h.isAlpha first List.mem_cons_self)
  · unfold writtenMembers
    rw [← List.cons_append, ← List.append_assoc, List.getLast?_concat]
    rintro _ ⟨⟩
    decide

theorem TakesMembers.saysUnsigned (h : TakesMembers keyword)
    (hgap : ∀ c ∈ gap, isAsciiBlank c = true) (hne : members ≠ []) :
    saysUnsigned (writtenMembers keyword gap members) = members.any saysWithin := by
  rw [writtenMembers, saysUnsigned_keyword_append h.isAlpha, saysBehind_memberList hgap hne]

/-- An enumeration or a set is read whatever its members hold. The list is found whole, and the
type has its keyword and no size. It is unsigned exactly if some member has the word within. -/
theorem parse_members (h : TakesMembers keyword) (hgap : ∀ c ∈ gap, isAsciiBlank c = true)
    (hne : members ≠ []) (column : String) :
    ColumnType.modifiers? (writtenMembers keyword gap members) = some (memberList gap members) ∧
      ∃ t, parse (.ofList (writtenMembers keyword gap members)) column = .ok t ∧
        t.keyword = .ofList (keyword.map Char.toLower) ∧ t.size = 0 ∧
        (t.isUnsigned = true ↔ ∃ member ∈ members, HoldsUnsigned member) := by
  have hlist := h.modifiers? hgap hne
  have hsize : ∀ written, declaredSize (keyword.map Char.toLower) written column = .ok 0 := by
    intro written
    unfold declaredSize
    split
    · rfl
    · rw [if_pos (by simpa [TakesMembers] using h)]
  have hread : parse (.ofList (writtenMembers keyword gap members)) column =
      .ok ⟨.ofList (keyword.map Char.toLower), 0, members.any saysWithin⟩ := by
    rw [parse_of_trim h.trim, h.keywordOf, hsize, h.saysUnsigned hgap hne]
    rfl
  refine ⟨hlist, _, hread, rfl, rfl, ?_⟩
  rw [List.any_eq_true]
  simp only [saysWithin_iff]

/-- Members with quotes, commas, parentheses and digits, and one that is the word itself. -/
def trickyMembers : List (List Char) :=
  ["it's (1".toList, "2)".toList, ")(,'".toList, "unsigned".toList, "7".toList]

def trickyType : String := "Enum('it''s (1', '2)', ')(,''', 'unsigned', '7')"

theorem trickyType_parses :
    (TakesMembers "Enum".toList ∧ (∀ c ∈ [' '], isAsciiBlank c = true) ∧ trickyMembers ≠ []) ∧
      trickyType = .ofList (writtenMembers "Enum".toList [' '] trickyMembers) ∧
      parse trickyType "kind" = .ok ⟨"enum", 0, false⟩ := by
  have hkeyword : TakesMembers "Enum".toList := .inl (by decide +kernel)
  have hgap : ∀ c ∈ [' '], isAsciiBlank c = true := List.all_eq_true.mp (by decide)
  have hne : trickyMembers ≠ [] := List.cons_ne_nil _ _
  have htext : trickyType = .ofList (writtenMembers "Enum".toList [' '] trickyMembers) := by
    decide +kernel
  have hnone : ¬ ∃ member ∈ trickyMembers, HoldsUnsigned member := by
    simp only [← saysWithin_iff]
    decide +kernel
  have hlower : String.ofList ("Enum".toList.map Char.toLower) = "enum" := by decide +kernel
  refine ⟨⟨hkeyword, hgap, hne⟩, htext, ?_⟩
  obtain ⟨_, ⟨name, size, isUnsigned⟩, hread, rfl, rfl, hunsigned⟩ :=
    parse_members hkeyword hgap hne "kind"
  have hsigned : isUnsigned = false := by
    rw [← Bool.not_eq_true]
    exact fun h => hnone (hunsigned.mp h)
  rw [htext, hread, hsigned, hlower]

/-- One member holds the word between blanks, and the type counts as unsigned. -/
theorem wordyMember_isUnsigned :
    String.ofList (writtenMembers "ENUM".toList [] ["a unsigned b".toList]) =
      "ENUM('a unsigned b')" ∧
      parse "ENUM('a unsigned b')" "kind" = .ok ⟨"enum", 0, true⟩ :=
  ⟨by decide +kernel, Checks.eq_ok_of_toOption (by decide +kernel)⟩

end Whole

end Tablewright.ColumnType
