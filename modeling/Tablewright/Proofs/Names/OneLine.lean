import Tablewright.Proofs.Noun.Plurals

/-! Names that stand on one line. Words are cut out of a name, letters change their case, and an
ending is replaced from the tables, but none of that writes a line feed: where the name of a column
holds none, the fields made from it hold none. -/

namespace Tablewright

namespace Text

/-! ## Letters in another case -/

section Case

variable {c : Char} {cs : List Char}

/-- What is read off the tables, once: the other case of a character comes after the line feed. -/
theorem tables_lineFeed :
    (∀ row ∈ CaseTable.upperRuns ++ CaseTable.lowerRuns, '\n'.toNat < row.2.2.2) ∧
    ∀ row ∈ CaseTable.upperExpansions ++ CaseTable.lowerExpansions, ∀ code ∈ row.2,
      '\n'.toNat < code := by
  decide +kernel

theorem ofNat_ne_lineFeed {code : Nat} (h : '\n'.toNat < code) : Char.ofNat code ≠ '\n' := by
  by_cases hvalid : code.isValidChar
  · rw [Char.ofNat, dif_pos hvalid]
    intro heq
    have hcode : code = '\n'.toNat := congrArg Char.toNat heq
    omega
  · rw [Char.ofNat, dif_neg hvalid]
    decide

theorem lt_of_image? {rows : List (Nat × Nat × Nat × Nat)} {bound code image : Nat}
    (hrows : ∀ row ∈ rows, bound < row.2.2.2) (h : Case.image? rows code = some image) :
    bound < image := by
  obtain ⟨⟨first, last, step, target⟩, hrow, hsome⟩ := List.exists_of_findSome?_eq_some h
  rw [Option.ite_none_right_eq_some] at hsome
  obtain rfl : target + (code - first) = image := Option.some.inj hsome.2
  exact Nat.lt_add_right (code - first) (hrows _ hrow)

theorem lineFeed_notMem_convert {rows : List (Nat × Nat × Nat × Nat)}
    {expansions : List (Nat × List Nat)} (hrows : ∀ row ∈ rows, '\n'.toNat < row.2.2.2)
    (hexpansions : ∀ row ∈ expansions, ∀ code ∈ row.2, '\n'.toNat < code) (hc : c ≠ '\n') :
    '\n' ∉ Case.convert rows expansions c := by
  unfold Case.convert
  split
  · rename_i codes hcodes
    obtain ⟨before, after, hsplit, _⟩ := List.lookup_eq_some_iff.mp hcodes
    have hmem : (c.toNat, codes) ∈ expansions := by
      rw [hsplit]
      exact List.mem_append_right before List.mem_cons_self
    rw [List.mem_map]
    rintro ⟨code, hcode, heq⟩
    exact ofNat_ne_lineFeed (hexpansions _ hmem code hcode) heq
  · cases himage : Case.image? rows c.toNat with
    | none =>
      rw [Option.map_none, Option.getD_none, List.mem_singleton]
      exact hc.symm
    | some image =>
      rw [Option.map_some, Option.getD_some, List.mem_singleton]
      exact (ofNat_ne_lineFeed (lt_of_image? hrows himage)).symm

/-- Within ASCII, no other character has the line feed as its other case. -/
theorem toUpper_toLower_ne_lineFeed (h : isAscii c = true) (hc : c ≠ '\n') :
    c.toUpper ≠ '\n' ∧ c.toLower ≠ '\n' :=
  of_toNat_lt (p := fun c => c ≠ '\n' → c.toUpper ≠ '\n' ∧ c.toLower ≠ '\n') (by decide +kernel)
    (of_decide_eq_true h) hc

theorem lineFeed_notMem_upperChar (hc : c ≠ '\n') : '\n' ∉ upperChar c := by
  unfold upperChar
  split
  · rename_i hascii
    rw [List.mem_singleton]
    exact (toUpper_toLower_ne_lineFeed hascii hc).1.symm
  · exact lineFeed_notMem_convert
      (fun row hrow => tables_lineFeed.1 row (List.mem_append_left _ hrow))
      (fun row hrow => tables_lineFeed.2 row (List.mem_append_left _ hrow)) hc

theorem lineFeed_notMem_lowerChar (hc : c ≠ '\n') : '\n' ∉ lowerChar c := by
  unfold lowerChar
  split
  · rename_i hascii
    rw [List.mem_singleton]
    exact (toUpper_toLower_ne_lineFeed hascii hc).2.symm
  · exact lineFeed_notMem_convert
      (fun row hrow => tables_lineFeed.1 row (List.mem_append_right _ hrow))
      (fun row hrow => tables_lineFeed.2 row (List.mem_append_right _ hrow)) hc

theorem lineFeed_notMem_upper (h : '\n' ∉ cs) : '\n' ∉ upper cs := by
  rw [upper, List.mem_flatMap]
  rintro ⟨c, hc, hmem⟩
  exact lineFeed_notMem_upperChar (ne_of_mem_of_not_mem hc h) hmem

theorem lineFeed_notMem_lowerAfter (h : '\n' ∉ cs) (before : List Char) :
    '\n' ∉ lowerAfter before cs := by
  induction cs generalizing before with
  | nil => exact List.not_mem_nil
  | cons c rest ih =>
    have hc : c ≠ '\n' := (List.ne_of_not_mem_cons h).symm
    rw [lowerAfter, List.mem_append, not_or]
    refine ⟨?_, ih (List.not_mem_of_not_mem_cons h) _⟩
    split
    · split <;> decide
    · exact lineFeed_notMem_lowerChar hc

theorem lineFeed_notMem_lower (h : '\n' ∉ cs) : '\n' ∉ lower cs :=
  lineFeed_notMem_lowerAfter h []

theorem lineFeed_notMem_capitalize (h : '\n' ∉ cs) : '\n' ∉ capitalize cs := by
  cases cs with
  | nil => exact List.not_mem_nil
  | cons c rest =>
    have hc : c ≠ '\n' := (List.ne_of_not_mem_cons h).symm
    rw [capitalize, List.mem_append, not_or]
    exact ⟨lineFeed_notMem_upperChar hc, lineFeed_notMem_lower (List.not_mem_of_not_mem_cons h)⟩

end Case

/-! ## Words -/

section Words

variable {word cs w : List Char} {clusters : List (List Char)}

theorem subset_of_mem_splitWords (h : w ∈ splitWords word clusters) :
    w ⊆ word ++ clusters.flatten := by
  induction clusters generalizing word with
  | nil =>
    obtain rfl := List.mem_singleton.mp h
    exact List.subset_append_left _ _
  | cons cluster rest ih =>
    rw [List.flatten_cons, ← List.append_assoc]
    by_cases hkind : ClusterKind.of cluster = .separator
    · rw [splitWords_separator hkind] at h
      rcases List.mem_cons.mp h with rfl | h
      · exact List.subset_append_of_subset_left _ (List.subset_append_left _ _)
      · exact List.subset_append_of_subset_right _ (ih h)
    · rcases splitWords_cons hkind word rest with heq | heq
      · rw [heq] at h
        rcases List.mem_cons.mp h with rfl | h
        · exact List.subset_append_left _ _
        · exact List.subset_append_of_subset_right _ (ih h)
      · rw [heq] at h
        exact ih h

theorem subset_of_mem_words (h : w ∈ words cs) : w ⊆ cs := by
  unfold words at h
  split at h
  · cases h
  · have hsubset := subset_of_mem_splitWords h
    rwa [clusters, List.flatten_splitBy] at hsubset

theorem lineFeed_notMem_pascal (h : '\n' ∉ cs) : '\n' ∉ pascal cs := by
  rw [pascal, List.mem_flatMap]
  rintro ⟨w, hw, hmem⟩
  exact lineFeed_notMem_capitalize (fun hfeed => h (subset_of_mem_words hw hfeed)) hmem

end Words

end Text

namespace Noun

open Text

/-! ## Endings -/

section Endings

variable {word token text cs : List Char} {c : Char}

theorem lineFeed_notMem_restoreCase (h : '\n' ∉ token) : '\n' ∉ restoreCase word token := by
  unfold restoreCase
  split_ifs
  · exact h
  · exact lineFeed_notMem_lower h
  · exact lineFeed_notMem_upper h
  · exact h
  · exact lineFeed_notMem_lower h

theorem mem_or_mem_of_mem_fillPlace {digit : Char} (h : c ∈ fillPlace digit text cs) :
    c ∈ text ∨ c ∈ cs := by
  fun_induction fillPlace digit text cs with
  | case1 rest ih =>
    rcases List.mem_append.mp h with h | h
    · exact .inl h
    · exact (ih h).imp_right fun hrest => by simp [hrest]
  | case2 d rest hd ih =>
    rcases List.mem_cons.mp h with rfl | h
    · exact .inr List.mem_cons_self
    · exact (ih h).imp_right (List.mem_cons_of_mem _)
  | case3 d rest _ ih =>
    rcases List.mem_cons.mp h with rfl | h
    · exact .inr List.mem_cons_self
    · exact (ih h).imp_right (List.mem_cons_of_mem _)
  | case4 => exact .inr h

theorem dropPlaces_subset (cs : List Char) : dropPlaces cs ⊆ cs := by
  fun_induction dropPlaces cs with
  | case1 c rest ih => exact List.subset_cons_of_subset _ (List.subset_cons_of_subset c ih)
  | case2 => exact List.nil_subset _
  | case3 c rest _ _ ih => exact List.cons_subset_cons c ih
  | case4 => exact List.nil_subset _

theorem lineFeed_notMem_fillPlaces {texts : List (List Char)} (htexts : ∀ t ∈ texts, '\n' ∉ t)
    (h : '\n' ∉ cs) : '\n' ∉ fillPlaces cs texts := by
  refine fillPlaces_induction (motive := ('\n' ∉ ·)) ?_ h
  intro text htext digit cs hcs hmem
  exact (mem_or_mem_of_mem_fillPlace hmem).elim (htexts text htext) hcs

/-- What is read off the tables, once: neither what the rules write nor the irregular words hold a
line feed. -/
theorem tables_inflection :
    (∀ rule ∈ Rules.plural ++ Rules.singular ++ Rules.uncountableEndings,
      '\n' ∉ rule.placement.toList) ∧
    ∀ row ∈ Rules.irregular, '\n' ∉ row.1.toList ∧ '\n' ∉ row.2.toList := by
  decide +kernel

theorem lineFeed_notMem_placement {number : GrammaticalNumber} {rule : Rule}
    (h : rule ∈ rules number ++ Rules.uncountableEndings) : '\n' ∉ rule.placement.toList := by
  refine tables_inflection.1 rule ?_
  rcases List.mem_append.mp h with h | h
  · cases number with
    | singular => exact List.mem_append_left _ (List.mem_append_right _ h)
    | plural => exact List.mem_append_left _ (List.mem_append_left _ h)
  · exact List.mem_append_right _ h

theorem lineFeed_notMem_replace? {rule : Rule} (hrule : '\n' ∉ rule.placement.toList)
    (hword : '\n' ∉ word) {result : List Char} (h : rule.replace? word = some result) :
    '\n' ∉ result := by
  obtain ⟨⟨stem, ending, groups⟩, hsearch, rfl⟩ := Option.map_eq_some_iff.mp h
  obtain ⟨hstem, hending, hgroups⟩ := Pattern.subset_of_searchEnd? hsearch
  have htexts : ∀ t ∈ (ending :: groups).map (restoreCase word), '\n' ∉ t := by
    rw [List.forall_mem_map]
    intro text htext
    refine lineFeed_notMem_restoreCase fun hfeed => hword ?_
    rcases List.mem_cons.mp htext with rfl | htext
    · exact hending hfeed
    · exact hgroups text htext hfeed
  intro hfeed
  rcases List.mem_append.mp (dropPlaces_subset _ hfeed) with hfeed | hfeed
  · exact hword (hstem hfeed)
  · exact lineFeed_notMem_fillPlaces htexts (lineFeed_notMem_restoreCase hrule) hfeed

/-- A word that is not answered with itself is answered with its partner. -/
theorem exists_row_of_irregularForm? {number : GrammaticalNumber} {form : List Char}
    (h : irregularForm? number token = some form) :
    form = token ∨ ∃ row ∈ Rules.irregular, row.1.toList = form ∨ row.2.toList = form := by
  cases number with
  | plural =>
    exact (irregularForm?_plural h).imp_right fun ⟨row, hrow, _, hform⟩ => ⟨row, hrow, .inr hform⟩
  | singular =>
    unfold irregularForm? at h
    dsimp only at h
    split at h
    · exact .inl (Option.some.inj h).symm
    · obtain ⟨before, after, hrows, _⟩ := List.lookup_eq_some_iff.mp h
      have hmem : (token, form) ∈ before ++ (token, form) :: after :=
        List.mem_append_right before List.mem_cons_self
      rw [← hrows] at hmem
      obtain ⟨swapped, hswapped, heq⟩ := List.mem_map.mp hmem
      obtain ⟨row, hrow, rfl⟩ := List.mem_map.mp hswapped
      cases heq
      exact .inr ⟨row, List.mem_reverse.mp hrow, .inl rfl⟩

theorem lineFeed_notMem_irregularForm? {number : GrammaticalNumber} {form : List Char}
    (htoken : '\n' ∉ token) (h : irregularForm? number token = some form) : '\n' ∉ form := by
  rcases exists_row_of_irregularForm? h with rfl | ⟨row, hrow, rfl | rfl⟩
  · exact htoken
  · exact (tables_inflection.2 row hrow).1
  · exact (tables_inflection.2 row hrow).2

theorem lineFeed_notMem_inflectWord (number : GrammaticalNumber) (h : '\n' ∉ word) :
    '\n' ∉ inflectWord number word := by
  have hlower := lineFeed_notMem_lower h
  unfold inflectWord
  dsimp only
  split
  · rename_i form hform
    exact lineFeed_notMem_restoreCase (lineFeed_notMem_irregularForm? hlower hform)
  · split
    · exact h
    · cases hfound : (rules number ++ Rules.uncountableEndings).reverse.findSome?
          (·.replace? word) with
      | none => exact h
      | some result =>
        obtain ⟨rule, hrule, hresult⟩ := List.exists_of_findSome?_eq_some hfound
        exact lineFeed_notMem_replace? (lineFeed_notMem_placement (List.mem_reverse.mp hrule)) h
          hresult

theorem lineFeed_notMem_inflect (number : GrammaticalNumber) (h : '\n' ∉ word) :
    '\n' ∉ inflect number word := by
  have hparts := h
  rw [← lastSegment_append word, List.mem_append, not_or] at hparts
  have hinflect : inflect number word = if (lastSegment word).2.isEmpty then
      inflectWord number word
    else (lastSegment word).1 ++ inflectWord number (lastSegment word).2 := rfl
  rw [hinflect]
  split
  · exact lineFeed_notMem_inflectWord number h
  · rw [List.mem_append, not_or]
    exact ⟨hparts.1, lineFeed_notMem_inflectWord number hparts.2⟩

end Endings

end Noun

namespace Names

open Text

/-! ## Fields -/

variable {name column : String}

theorem lineFeed_notMem_acronymId (h : '\n' ∉ name.toList) : '\n' ∉ (acronymId name).toList := by
  unfold acronymId
  split
  · rw [String.toList_ofList, List.mem_append, not_or]
    exact ⟨fun hfeed => h (List.mem_of_mem_take hfeed), by decide⟩
  · exact h

theorem lineFeed_notMem_field (h : '\n' ∉ column.toList) : '\n' ∉ (field column).toList := by
  refine lineFeed_notMem_acronymId ?_
  rw [pascal, String.toList_ofList]
  exact lineFeed_notMem_pascal h

theorem lineFeed_notMem_pluralField (h : '\n' ∉ column.toList) :
    '\n' ∉ (pluralField column).toList := by
  unfold pluralField
  dsimp only
  split
  · rw [String.toList_append, List.mem_append, not_or]
    exact ⟨lineFeed_notMem_field h, by decide⟩
  · refine lineFeed_notMem_field ?_
    rw [pluralOf, String.toList_ofList]
    exact Noun.lineFeed_notMem_inflect .plural h

end Names

end Tablewright
