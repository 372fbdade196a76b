import Mathlib.Data.List.SplitBy
import Mathlib.Data.List.Nodup
import Tablewright.Names
import Tablewright.Proofs.Text.Letters
import Tablewright.Proofs.Text.Split

/-! The fields of plain columns, whose names are lower-case words with an underscore between
neighbours. A field capitalises the words, so they can be found again in it. Only the acronym hides
where a word ends: `user_id` and `user_i_d` have the same field. -/

namespace Tablewright

namespace Text

/-! ## Lower-case letters -/

section Letters

variable {c : Char}

/-- What holds of the lower-case letters among the first characters holds of all of them. -/
theorem of_isLower {p : Char → Bool}
    (hp : ∀ n < 128, (Char.ofNat n).isLower = true → p (.ofNat n) = true)
    (h : c.isLower = true) : p c = true := by
  have hbound : c.toNat < 128 := toNat_lt_of_isAlpha (Bool.or_eq_true_iff.mpr (.inr h))
  exact of_toNat_lt (p := fun c => c.isLower = true → p c = true) hp hbound h

theorem isAscii_of_isLower : c.isLower = true → isAscii c = true :=
  of_isLower (p := isAscii) (by decide +kernel)

theorem ne_underscore_of_isLower (h : c.isLower = true) : c ≠ '_' := by
  rintro rfl
  cases h

theorem kind_of_isLower (h : c.isLower = true) : ClusterKind.of [c] = .lower :=
  of_decide_eq_true (of_isLower (p := fun c => ClusterKind.of [c] = .lower) (by decide +kernel) h)

theorem toUpper_of_isLower (h : c.isLower = true) :
    upperChar c = [c.toUpper] ∧ c.toUpper.isLower = false ∧ c.toUpper.toLower = c :=
  of_decide_eq_true (of_isLower
    (p := fun c => upperChar c = [c.toUpper] ∧ c.toUpper.isLower = false ∧ c.toUpper.toLower = c)
    (by decide +kernel) h)

theorem toLower_of_isLower (h : c.isLower = true) :
    c ≠ 'Σ' ∧ lowerChar c = [c] ∧ c.toLower = c :=
  of_decide_eq_true (of_isLower (p := fun c => c ≠ 'Σ' ∧ lowerChar c = [c] ∧ c.toLower = c)
    (by decide +kernel) h)

end Letters

/-- A word of lower-case letters. -/
structure IsWord (w : List Char) : Prop where
  nonempty : w ≠ []
  letters : ∀ c ∈ w, c.isLower = true

instance (w : List Char) : Decidable (IsWord w) :=
  decidable_of_iff (w ≠ [] ∧ w.all Char.isLower = true)
    ⟨fun h => ⟨h.1, List.all_eq_true.mp h.2⟩, fun h => ⟨h.nonempty, List.all_eq_true.mpr h.letters⟩⟩

theorem lowerAfter_eq_self {cs : List Char} (h : ∀ c ∈ cs, c ≠ 'Σ' ∧ lowerChar c = [c])
    (before : List Char) : lowerAfter before cs = cs := by
  induction cs generalizing before with
  | nil => rfl
  | cons c rest ih =>
    obtain ⟨⟨hsigma, hlower⟩, hrest⟩ := List.forall_mem_cons.mp h
    rw [lowerAfter, ih hrest, hlower]
    simp [hsigma]

theorem lowerAfter_letters {cs : List Char} (h : ∀ c ∈ cs, c.isLower = true)
    (before : List Char) : lowerAfter before cs = cs := by
  refine lowerAfter_eq_self (fun c hc => ?_) before
  obtain ⟨hsigma, hlower, _⟩ := toLower_of_isLower (h c hc)
  exact ⟨hsigma, hlower⟩

theorem capitalize_cons {c : Char} {rest : List Char} (h : IsWord (c :: rest)) :
    capitalize (c :: rest) = c.toUpper :: rest := by
  obtain ⟨hc, hrest⟩ := List.forall_mem_cons.mp h.letters
  rw [capitalize, (toUpper_of_isLower hc).1, lower, lowerAfter_letters hrest]
  rfl

/-! ## The words of a plain name -/

theorem clusters_ascii {cs : List Char} (h : ∀ c ∈ cs, isAscii c = true) :
    clusters cs = cs.map fun c => [c] := by
  induction cs with
  | nil => rfl
  | cons c rest ih =>
    obtain ⟨hc, hrest⟩ := List.forall_mem_cons.mp h
    have hjoins : ∀ a ∈ [c].getLast?, ∀ b ∈ rest.head?, Cluster.joins a b = false := by
      intro a ha b hb
      obtain rfl : c = a := by simpa using ha
      simp [Cluster.joins, Cluster.isAttaching, Cluster.isLeading, hc,
        hrest b (List.mem_of_mem_head? hb)]
    have hcons : clusters (c :: rest) = [c].splitBy Cluster.joins ++ clusters rest :=
      List.splitBy_append hjoins
    rw [hcons, ih hrest]
    rfl

/-- Lower-case letters and underscores are cut at the underscores only. -/
theorem splitWords_letters {cs : List Char} (h : ∀ c ∈ cs, c = '_' ∨ c.isLower = true)
    (word : List Char) : splitWords word (cs.map fun c => [c]) =
      (splitAt (· == '_') cs).modifyHead (word ++ ·) := by
  induction cs generalizing word with
  | nil => simp [splitWords, splitAt]
  | cons c rest ih =>
    obtain ⟨hc, hrest⟩ := List.forall_mem_cons.mp h
    rcases hc with rfl | hc
    · have hkind : ClusterKind.of ['_'] = .separator := by decide
      simp only [List.map_cons, splitWords, hkind, if_true, ih hrest, splitAt, beq_self_eq_true]
      cases splitAt (· == '_') rest <;> simp
    · have hkind := kind_of_isLower hc
      have hnext : ∀ next ∈ rest.head?, ∀ after,
          ClusterKind.lower.parts (ClusterKind.of [next]) after = false := by
        intro next hnext after
        rcases hrest next (List.mem_of_mem_head? hnext) with rfl | hlower
        · rfl
        · rw [kind_of_isLower hlower]
          rfl
      have hstep : splitWords word ((c :: rest).map fun c => [c]) =
          splitWords (word ++ [c]) (rest.map fun c => [c]) := by
        cases rest with
        | nil => simp [splitWords, hkind]
        | cons next rest =>
          conv => lhs; unfold splitWords
          simp [hkind, hnext next rfl]
      -- The word has grown by `c`, and in the pieces `c` is at the head of the first.
      rw [hstep, ih hrest, splitAt_cons_of_neg (by simpa using ne_underscore_of_isLower hc),
        List.modifyHead_modifyHead]
      simp [Function.comp_def]

theorem words_letters {cs : List Char} (hne : cs ≠ []) (h : ∀ c ∈ cs, c = '_' ∨ c.isLower = true) :
    words cs = splitAt (· == '_') cs := by
  have hascii : ∀ c ∈ cs, isAscii c = true := by
    intro c hc
    rcases h c hc with rfl | hlower
    · decide
    · exact isAscii_of_isLower hlower
  rw [words, if_neg (by simpa using hne), clusters_ascii hascii, splitWords_letters h]
  cases splitAt (· == '_') cs <;> simp

/-! ## Words found again -/

/-- The words of a text in which each begins with a capital. -/
def capitalWords (cs : List Char) : List (List Char) :=
  (cs.splitBy fun _ c => c.isLower).map (·.map Char.toLower)

theorem capitalWords_append {before after : List Char}
    (h : ∀ c ∈ after.head?, c.isLower = false) :
    capitalWords (before ++ after) = capitalWords before ++ capitalWords after := by
  unfold capitalWords
  rw [List.splitBy_append fun _ _ => h, List.map_append]

theorem capitalWords_capitalize {w : List Char} (h : IsWord w) :
    capitalWords (capitalize w) = [w] := by
  obtain ⟨c, rest, rfl⟩ := List.exists_cons_of_ne_nil h.nonempty
  obtain ⟨hc, hrest⟩ := List.forall_mem_cons.mp h.letters
  have hchain : (c.toUpper :: rest).IsChain fun _ c => c.isLower = true := by
    generalize c.toUpper = first
    clear h hc
    induction rest generalizing first with
    | nil => exact .singleton _
    | cons next rest ih =>
      obtain ⟨hnext, hrest⟩ := List.forall_mem_cons.mp hrest
      exact .cons_cons hnext (ih hrest next)
  have hletters : rest.map Char.toLower = rest := by
    rw [List.map_congr_left fun c hc => (toLower_of_isLower (hrest c hc)).2.2, List.map_id']
  rw [capitalize_cons h, capitalWords, List.splitBy_of_isChain (List.cons_ne_nil _ _) hchain,
    List.map_singleton, List.map_cons, hletters, (toUpper_of_isLower hc).2.2]

theorem isLower_head?_flatMap_capitalize {ws : List (List Char)} (h : ∀ w ∈ ws, IsWord w) :
    ∀ c ∈ (ws.flatMap capitalize).head?, c.isLower = false := by
  cases ws with
  | nil => simp
  | cons w ws =>
    obtain ⟨hw, _⟩ := List.forall_mem_cons.mp h
    obtain ⟨first, rest, rfl⟩ := List.exists_cons_of_ne_nil hw.nonempty
    intro c hc
    rw [List.flatMap_cons, capitalize_cons hw] at hc
    obtain rfl : first.toUpper = c := by simpa using hc
    exact (toUpper_of_isLower (hw.letters first List.mem_cons_self)).2.1

theorem capitalWords_flatMap_capitalize {ws : List (List Char)} (h : ∀ w ∈ ws, IsWord w) :
    capitalWords (ws.flatMap capitalize) = ws := by
  induction ws with
  | nil => rfl
  | cons w ws ih =>
    obtain ⟨hw, hws⟩ := List.forall_mem_cons.mp h
    rw [List.flatMap_cons, capitalWords_append (isLower_head?_flatMap_capitalize hws),
      capitalWords_capitalize hw, ih hws]
    rfl

/-- Words apart have capitalised texts apart. -/
theorem flatMap_capitalize_inj {ws vs : List (List Char)} (hws : ∀ w ∈ ws, IsWord w)
    (hvs : ∀ v ∈ vs, IsWord v) : ws.flatMap capitalize = vs.flatMap capitalize ↔ ws = vs := by
  constructor
  · intro h
    rw [← capitalWords_flatMap_capitalize hws, h, capitalWords_flatMap_capitalize hvs]
  · rintro rfl
    rfl

end Text

namespace Names

open Text

/-! ## Plain names -/

/-- What stands between the underscores of a name. -/
def segments (name : String) : List (List Char) := splitAt (· == '_') name.toList

/-- Lower-case words with one underscore between neighbours. -/
def IsPlain (name : String) : Prop := ∀ w ∈ segments name, IsWord w

instance (name : String) : Decidable (IsPlain name) :=
  inferInstanceAs (Decidable (∀ w ∈ segments name, IsWord w))

theorem segments_ne_nil (name : String) : segments name ≠ [] := splitAt_ne_nil _ _

theorem segments_inj {a b : String} : segments a = segments b ↔ a = b := by
  constructor
  · intro h
    have hchars : ['_'].intercalate (segments a) = ['_'].intercalate (segments b) := by rw [h]
    unfold segments at hchars
    rw [intercalate_splitAt, intercalate_splitAt] at hchars
    exact String.toList_inj.mp hchars
  · rintro rfl
    rfl

/-- The letters of a plain name, and what stands between its words. -/
theorem letters_of_isPlain {name : String} (h : IsPlain name) :
    ∀ c ∈ name.toList, c = '_' ∨ c.isLower = true := by
  intro c hc
  rcases mem_splitAt (· == '_') hc with hcut | ⟨w, hw, hcw⟩
  · exact .inl (beq_iff_eq.mp hcut)
  · exact .inr ((h w hw).letters c hcw)

theorem words_toList {name : String} (h : IsPlain name) : words name.toList = segments name := by
  have hne : name.toList ≠ [] := by
    intro hnil
    have hmem : [] ∈ segments name := by
      rw [segments, hnil]
      exact List.mem_cons_self
    exact (h [] hmem).nonempty rfl
  rw [words_letters hne (letters_of_isPlain h)]
  rfl

/-- The pascal form of a plain name is made of its segments. -/
theorem toList_pascal {name : String} (h : IsPlain name) :
    (pascal name).toList = (segments name).flatMap capitalize := by
  rw [pascal, String.toList_ofList, Text.pascal, words_toList h]

/-! ## The acronym -/

theorem endsWith_ofList {cs : List Char} {suffix : String} :
    (String.ofList cs).endsWith suffix = true ↔ suffix.toList <:+ cs := by
  rw [String.endsWith_eq_endsWith_toSlice, String.Slice.endsWith_string_iff, String.copy_toSlice,
    String.toList_ofList]

theorem acronymId_append (stem : List Char) :
    acronymId (.ofList (stem ++ ['I', 'd'])) = .ofList (stem ++ ['I', 'D']) := by
  have hends : ("Id" : String).toList <:+ stem ++ ['I', 'd'] := List.suffix_append _ _
  have hlength : (String.ofList (stem ++ ['I', 'd'])).length - 2 = stem.length := by
    rw [String.length_ofList, List.length_append]
    rfl
  rw [acronymId, if_pos (endsWith_ofList.mpr hends), hlength, String.toList_ofList, List.take_left]

theorem acronymId_of_not_suffix {cs : List Char} (h : ¬ ['I', 'd'] <:+ cs) :
    acronymId (.ofList cs) = .ofList cs := by
  have hends : ¬ (String.ofList cs).endsWith "Id" = true := mt endsWith_ofList.mp h
  rw [acronymId, if_neg hends]

/-- The words whose capitalised text is the field: a final `id` counts as two words. -/
def spelled (ws : List (List Char)) : List (List Char) :=
  if ws.getLast? = some ['i', 'd'] then ws.dropLast ++ [['i'], ['d']] else ws

theorem spelled_append_id (ws : List (List Char)) :
    spelled (ws ++ [['i', 'd']]) = ws ++ [['i'], ['d']] := by
  simp [spelled]

/-- Words that do not end in `id` are left as they are. -/
theorem spelled_cases (ws : List (List Char)) :
    (∃ vs, ws = vs ++ [['i', 'd']]) ∨ ws.getLast? ≠ some ['i', 'd'] ∧ spelled ws = ws := by
  by_cases hlast : ws.getLast? = some ['i', 'd']
  · exact .inl ⟨ws.dropLast, (List.dropLast_append_getLast? _ hlast).symm⟩
  · exact .inr ⟨hlast, if_neg hlast⟩

theorem isWord_of_mem_spelled {ws : List (List Char)} (h : ∀ w ∈ ws, IsWord w) :
    ∀ w ∈ spelled ws, IsWord w := by
  rcases spelled_cases ws with ⟨vs, rfl⟩ | ⟨_, hspelled⟩
  · have hi : IsWord ['i'] := by decide
    have hd : IsWord ['d'] := by decide
    rw [spelled_append_id]
    intro w hw
    rcases List.mem_append.mp hw with hw | hw
    · exact h w (List.mem_append_left _ hw)
    · simp only [List.mem_cons, List.not_mem_nil, or_false] at hw
      rcases hw with rfl | rfl
      · exact hi
      · exact hd
  · rwa [hspelled]

theorem spelled_eq_iff {ws vs : List (List Char)} :
    spelled ws = spelled vs ↔ ws = vs ∨
      (∃ us, ws = us ++ [['i', 'd']] ∧ vs = us ++ [['i'], ['d']]) ∨
      ∃ us, vs = us ++ [['i', 'd']] ∧ ws = us ++ [['i'], ['d']] := by
  constructor
  · intro h
    rcases spelled_cases ws with ⟨us, rfl⟩ | ⟨_, hws⟩
    · rw [spelled_append_id] at h
      rcases spelled_cases vs with ⟨us', rfl⟩ | ⟨_, hvs⟩
      · rw [spelled_append_id] at h
        exact .inl (by rw [List.append_cancel_right h])
      · exact .inr (.inl ⟨us, rfl, by rw [h, hvs]⟩)
    · rcases spelled_cases vs with ⟨us', rfl⟩ | ⟨_, hvs⟩
      · rw [spelled_append_id, hws] at h
        exact .inr (.inr ⟨us', rfl, h⟩)
      · rw [hws, hvs] at h
        exact .inl h
  · have hspelled : ∀ us, spelled (us ++ [['i'], ['d']]) = us ++ [['i'], ['d']] :=
      fun us => if_neg (by simp)
    rintro (rfl | ⟨us, rfl, rfl⟩ | ⟨us, rfl, rfl⟩)
    · rfl
    · rw [spelled_append_id, hspelled]
    · rw [spelled_append_id, hspelled]

theorem toList_field {name : String} (h : IsPlain name) :
    (field name).toList = (spelled (segments name)).flatMap capitalize := by
  have hpascal : pascal name = .ofList ((segments name).flatMap capitalize) := by
    rw [← toList_pascal h, String.ofList_toList]
  rw [field, hpascal]
  rcases spelled_cases (segments name) with ⟨ws, hws⟩ | ⟨hlast, hspelled⟩
  · have hcapital : capitalize ['i', 'd'] = ['I', 'd'] := by decide
    rw [hws, spelled_append_id, List.flatMap_append, List.flatMap_singleton, hcapital,
      acronymId_append, String.toList_ofList, List.flatMap_append]
    rfl
  · rw [hspelled, acronymId_of_not_suffix, String.toList_ofList]
    rintro ⟨stem, hstem⟩
    -- Only a word can begin with the last capital, so the name would end in the word `id`.
    have hcapital : ∀ c ∈ ['I', 'd'].head?, c.isLower = false := by
      rintro c ⟨rfl⟩
      rfl
    have hwords : capitalWords stem ++ [['i', 'd']] = segments name := by
      rw [← capitalWords_flatMap_capitalize h, ← hstem, capitalWords_append hcapital]
      rfl
    exact hlast (by rw [← hwords, List.getLast?_concat])

/-- The last word of one name is `id`, and the other name spells it as two words. -/
def SpellsId (a b : String) : Prop :=
  ∃ ws, segments a = ws ++ [['i', 'd']] ∧ segments b = ws ++ [['i'], ['d']]

/-- The fields of plain columns are the same only if an acronym hides the difference. -/
theorem field_eq_iff {a b : String} (ha : IsPlain a) (hb : IsPlain b) :
    field a = field b ↔ a = b ∨ SpellsId a b ∨ SpellsId b a := by
  rw [← String.toList_inj, toList_field ha, toList_field hb,
    flatMap_capitalize_inj (isWord_of_mem_spelled ha) (isWord_of_mem_spelled hb), spelled_eq_iff,
    segments_inj]
  rfl

example : SpellsId "user_id" "user_i_d" := ⟨[['u', 's', 'e', 'r']], by decide, by decide⟩

theorem ne_of_spellsId {a b : String} (h : SpellsId a b) : a ≠ b := by
  rintro rfl
  obtain ⟨ws, hone, htwo⟩ := h
  have hlength := congrArg List.length (hone.symm.trans htwo)
  simp at hlength

/-- Distinct plain columns have distinct fields unless one spells the `id` of another. -/
theorem nodup_fields_iff {names : List String} (hn : names.Nodup) (h : ∀ a ∈ names, IsPlain a) :
    (names.map field).Nodup ↔ ∀ a ∈ names, ∀ b ∈ names, ¬ SpellsId a b := by
  rw [List.nodup_map_iff_inj_on hn]
  constructor
  · intro hinj a ha b hb hspells
    exact ne_of_spellsId hspells
      (hinj a ha b hb ((field_eq_iff (h a ha) (h b hb)).mpr (.inr (.inl hspells))))
  · intro hspells a ha b hb hfield
    rcases (field_eq_iff (h a ha) (h b hb)).mp hfield with heq | hab | hba
    · exact heq
    · exact absurd hab (hspells a ha b hb)
    · exact absurd hba (hspells b hb a ha)

theorem field_ne_empty {name : String} (h : IsPlain name) : field name ≠ "" := by
  intro hempty
  have hchars := toList_field h
  rw [hempty] at hchars
  have hnil := capitalWords_flatMap_capitalize (isWord_of_mem_spelled h)
  rw [← hchars] at hnil
  rcases spelled_cases (segments name) with ⟨ws, hws⟩ | ⟨_, hspelled⟩
  · rw [hws, spelled_append_id] at hnil
    exact List.append_ne_nil_of_right_ne_nil ws (List.cons_ne_nil _ _) hnil.symm
  · rw [hspelled] at hnil
    exact segments_ne_nil name hnil.symm

/-! ## Fields among other names -/

theorem asciiLower_of_isPlain {name : String} (h : IsPlain name) : asciiLower name = name := by
  have hletters : name.toList.map Char.toLower = name.toList := by
    refine (List.map_congr_left fun c hc => ?_).trans (List.map_id _)
    rcases letters_of_isPlain h c hc with rfl | hlower
    · rfl
    · exact (toLower_of_isLower hlower).2.2
  rw [asciiLower, hletters, String.ofList_toList]

theorem pascal_eq_iff {a b : String} (ha : IsPlain a) (hb : IsPlain b) :
    pascal a = pascal b ↔ a = b := by
  rw [← String.toList_inj, toList_pascal ha, toList_pascal hb, flatMap_capitalize_inj ha hb,
    segments_inj]

/-- A field does not begin with a lower-case letter. -/
theorem isLower_head?_field {name : String} (h : IsPlain name) :
    ∀ c ∈ (field name).toList.head?, c.isLower = false := by
  rw [toList_field h]
  exact isLower_head?_flatMap_capitalize (isWord_of_mem_spelled h)

/-- A local name does. -/
theorem exists_head?_camel {name : String} (h : IsPlain name) :
    ∃ c, (camel name).toList.head? = some c ∧ c.isLower = true := by
  obtain ⟨first, rest, hsegments⟩ := List.exists_cons_of_ne_nil (segments_ne_nil name)
  have hfirst : IsWord first := h first (hsegments ▸ List.mem_cons_self)
  obtain ⟨c, letters, rfl⟩ := List.exists_cons_of_ne_nil hfirst.nonempty
  refine ⟨c, ?_, hfirst.letters c List.mem_cons_self⟩
  rw [camel, String.toList_ofList, Text.camel, words_toList h, hsegments]
  simp only [lower, lowerAfter_letters hfirst.letters, List.cons_append, List.head?_cons]

/-- A name of one word other than `id` has its field for itself. -/
theorem field_eq_field_word_iff {a b : String} {w : List Char} (ha : IsPlain a) (hb : IsPlain b)
    (hw : segments b = [w]) (hid : w ≠ ['i', 'd']) : field a = field b ↔ a = b := by
  rw [field_eq_iff ha hb]
  refine ⟨?_, .inl⟩
  rintro (heq | ⟨ws, _, hspelled⟩ | ⟨ws, hspells, _⟩)
  · exact heq
  · have hlength := congrArg List.length (hw.symm.trans hspelled)
    simp at hlength
  · have hlast := congrArg List.getLast? (hw.symm.trans hspells)
    rw [List.getLast?_concat] at hlast
    exact absurd (Option.some.inj hlast) hid

theorem field_ne_daoField {column table : String} (hc : IsPlain column)
    (ht : IsPlain (singularOf table)) : field column ≠ daoField table := by
  intro heq
  obtain ⟨c, hhead, hlower⟩ := exists_head?_camel ht
  have hfirst : c ∈ (field column).toList.head? := by
    rw [heq, daoField, String.toList_append, List.head?_append, hhead]
    rfl
  rw [isLower_head?_field hc c hfirst] at hlower
  cases hlower

end Names

end Tablewright
