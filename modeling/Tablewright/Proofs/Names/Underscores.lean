import Tablewright.Proofs.Names.Fields

/-! What a field keeps of the name of a column: all of it but the underscores. Names of lower-case
letters, digits and underscores are cut into words that still hold every other character, capitals
come back in lower case, and the acronym changes nothing but the case of a letter. -/

namespace Tablewright

namespace Text

/-- The lower-case letters, the digits and the underscore. -/
def isSnake (c : Char) : Bool := c.isLower || c.isDigit || c == '_'

/-- The text without its underscores. -/
def bare (cs : List Char) : List Char := cs.filter (· ≠ '_')

theorem bare_append (cs ds : List Char) : bare (cs ++ ds) = bare cs ++ bare ds :=
  List.filter_append ..

theorem bare_of_notMem {cs : List Char} (h : '_' ∉ cs) : bare cs = cs := by
  refine List.filter_eq_self.mpr fun c hc => ?_
  have hne : c ≠ '_' := fun heq => h (heq ▸ hc)
  simpa using hne

/-! ## Characters -/

section Characters

variable {c : Char} {cs : List Char}

theorem isSnake_of_isLower (h : c.isLower = true) : isSnake c = true := by
  simp [isSnake, h]

/-- What holds of these characters, one by one, holds of each of them. -/
theorem of_isSnake {p : Char → Bool}
    (hp : ∀ n < 128, isSnake (.ofNat n) = true → p (.ofNat n) = true)
    (h : isSnake c = true) : p c = true := by
  have hbound : c.toNat < 128 := by
    rcases Bool.or_eq_true_iff.mp h with h | hunderscore
    · rcases Bool.or_eq_true_iff.mp h with hlower | hdigit
      · exact toNat_lt_of_isAlpha (Bool.or_eq_true_iff.mpr (.inr hlower))
      · have hle : c.val ≤ '9'.val := of_decide_eq_true (Bool.and_eq_true_iff.mp hdigit).2
        exact Nat.lt_of_le_of_lt (UInt32.le_iff_toNat_le.mp hle) (by decide)
    · obtain rfl := beq_iff_eq.mp hunderscore
      decide
  exact of_toNat_lt (p := fun c => isSnake c = true → p c = true) hp hbound h

/-- What the tables have on one of these characters. None of them is a capital, and only the
underscore stands between words. -/
theorem tables_of_isSnake (h : isSnake c = true) :
    isAscii c = true ∧ (c ≠ 'Σ' ∧ lowerChar c = [c]) ∧ c.toLower = c ∧
      (upperChar c = [c.toUpper] ∧ c.toUpper.toLower = c) ∧
      (ClusterKind.of [c] = .separator ↔ c = '_') :=
  of_decide_eq_true (of_isSnake (p := fun c => isAscii c = true ∧ (c ≠ 'Σ' ∧ lowerChar c = [c]) ∧
    c.toLower = c ∧ (upperChar c = [c.toUpper] ∧ c.toUpper.toLower = c) ∧
    (ClusterKind.of [c] = .separator ↔ c = '_')) (by decide +kernel) h)

theorem isAscii_of_isSnake (h : isSnake c = true) : isAscii c = true := (tables_of_isSnake h).1

theorem ne_dollar_of_isSnake (h : isSnake c = true) : c ≠ '$' := by
  rintro rfl
  cases h

theorem lowerChar_of_isSnake (h : isSnake c = true) : c ≠ 'Σ' ∧ lowerChar c = [c] :=
  (tables_of_isSnake h).2.1

theorem toLower_of_isSnake (h : isSnake c = true) : c.toLower = c := (tables_of_isSnake h).2.2.1

theorem upperChar_of_isSnake (h : isSnake c = true) :
    upperChar c = [c.toUpper] ∧ c.toUpper.toLower = c :=
  (tables_of_isSnake h).2.2.2.1

theorem kind_of_isSnake (h : isSnake c = true) : ClusterKind.of [c] = .separator ↔ c = '_' :=
  (tables_of_isSnake h).2.2.2.2

theorem lower_of_isSnake (h : ∀ c ∈ cs, isSnake c = true) : lower cs = cs :=
  lowerAfter_eq_self (fun c hc => lowerChar_of_isSnake (h c hc)) []

theorem map_toLower_of_isSnake (h : ∀ c ∈ cs, isSnake c = true) : cs.map Char.toLower = cs := by
  rw [List.map_congr_left fun c hc => toLower_of_isSnake (h c hc), List.map_id']

end Characters

/-! ## Words -/

theorem splitWords_separator {cluster : List Char} (h : ClusterKind.of cluster = .separator)
    (word : List Char) (rest : List (List Char)) :
    splitWords word (cluster :: rest) = word :: splitWords [] rest := by
  rw [splitWords.eq_def]
  exact if_pos h

/-- Behind what is no separator, the word ends or goes on. -/
theorem splitWords_cons {cluster : List Char} (h : ClusterKind.of cluster ≠ .separator)
    (word : List Char) (rest : List (List Char)) :
    splitWords word (cluster :: rest) = (word ++ cluster) :: splitWords [] rest ∨
      splitWords word (cluster :: rest) = splitWords (word ++ cluster) rest := by
  rw [splitWords.eq_def]
  dsimp only
  rw [if_neg h]
  split_ifs
  · exact .inl rfl
  · exact .inr rfl

/-- Wherever words are cut, together they are the text without its underscores. -/
theorem flatten_splitWords {cs : List Char} (h : ∀ c ∈ cs, isSnake c = true) (word : List Char) :
    (splitWords word (cs.map fun c => [c])).flatten = word ++ bare cs := by
  induction cs generalizing word with
  | nil => simp [splitWords, bare]
  | cons c rest ih =>
    obtain ⟨hc, hrest⟩ := List.forall_mem_cons.mp h
    have hkind := kind_of_isSnake hc
    rw [List.map_cons]
    by_cases hunderscore : c = '_'
    · have hbare : bare (c :: rest) = bare rest :=
        List.filter_cons_of_neg (by simpa using hunderscore)
      rw [splitWords_separator (hkind.mpr hunderscore), List.flatten_cons, ih hrest, hbare,
        List.nil_append]
    · have hbare : bare (c :: rest) = c :: bare rest :=
        List.filter_cons_of_pos (by simpa using hunderscore)
      rcases splitWords_cons (mt hkind.mp hunderscore) word (rest.map fun c => [c]) with hw | hw
      · rw [hw, hbare, List.flatten_cons, ih hrest, List.append_assoc]
        rfl
      · rw [hw, hbare, ih hrest, List.append_assoc]
        rfl

theorem flatten_words {cs : List Char} (h : ∀ c ∈ cs, isSnake c = true) :
    (words cs).flatten = bare cs := by
  by_cases hnil : cs = []
  · rw [hnil]
    rfl
  · rw [words, if_neg (by simpa using hnil),
      clusters_ascii fun c hc => isAscii_of_isSnake (h c hc), flatten_splitWords h, List.nil_append]

theorem map_toLower_capitalize {w : List Char} (h : ∀ c ∈ w, isSnake c = true) :
    (capitalize w).map Char.toLower = w := by
  cases w with
  | nil => rfl
  | cons c rest =>
    obtain ⟨hc, hrest⟩ := List.forall_mem_cons.mp h
    obtain ⟨hupper, hlower⟩ := upperChar_of_isSnake hc
    rw [capitalize, hupper, lower_of_isSnake hrest, List.singleton_append, List.map_cons, hlower,
      map_toLower_of_isSnake hrest]

theorem map_toLower_pascal {cs : List Char} (h : ∀ c ∈ cs, isSnake c = true) :
    (pascal cs).map Char.toLower = bare cs := by
  have hwords : ∀ w ∈ words cs, ∀ c ∈ w, isSnake c = true := by
    intro w hw c hc
    have hmem : c ∈ bare cs := by
      rw [← flatten_words h]
      exact List.mem_flatten_of_mem hw hc
    exact h c (List.mem_filter.mp hmem).1
  calc (pascal cs).map Char.toLower
      = (words cs).flatMap fun w => (capitalize w).map Char.toLower := by
        rw [pascal, List.map_flatMap]
    _ = (words cs).flatten := by
        rw [List.flatMap_congr fun w hw => map_toLower_capitalize (hwords w hw),
          List.flatMap_id']
    _ = bare cs := flatten_words h

end Text

namespace Names

open Text

/-- A name of lower-case letters, digits and underscores. -/
def IsSnake (name : String) : Prop := ∀ c ∈ name.toList, isSnake c = true

instance (name : String) : Decidable (IsSnake name) :=
  List.decidableBAll (isSnake · = true) name.toList

theorem map_toLower_acronymId (name : String) :
    (acronymId name).toList.map Char.toLower = name.toList.map Char.toLower := by
  by_cases hends : name.endsWith "Id" = true
  · obtain ⟨stem, hstem⟩ : ∃ stem, stem ++ ['I', 'd'] = name.toList := by
      rw [← String.ofList_toList (s := name)] at hends
      exact endsWith_ofList.mp hends
    have hname : name = .ofList (stem ++ ['I', 'd']) := by rw [hstem, String.ofList_toList]
    rw [hname, acronymId_append, String.toList_ofList, String.toList_ofList, List.map_append,
      List.map_append]
    rfl
  · rw [acronymId, if_neg hends]

/-- In lower case, the field of a name is the name without its underscores. -/
theorem map_toLower_field {name : String} (h : IsSnake name) :
    (field name).toList.map Char.toLower = bare name.toList := by
  rw [field, map_toLower_acronymId, pascal, String.toList_ofList, map_toLower_pascal h]

end Names

end Tablewright
