import Mathlib.Data.List.TakeWhile
import Tablewright.Proofs.Names.Underscores
import Tablewright.Proofs.Noun.Endings

/-! The plural of a name of lower-case letters, digits and underscores. Only the segment behind the
last underscore changes, and no underscore is written, so a name that is not its own plural differs
from its plural in more than underscores. A name that ends in an underscore has none of the endings
of the rules but the empty one, and takes a plain `s`. -/

namespace Tablewright.Noun

open Tablewright.Text

/-! ## The tables -/

/-- Lower-case letters, and places that are marked with a dollar sign. -/
def isTemplate : List Char → Bool
  | [] => true
  | '$' :: c :: rest => c != '$' && isTemplate rest
  | c :: rest => c.isLower && isTemplate rest

theorem template_of_isTemplate {cs : List Char} (h : isTemplate cs = true) :
    Template (·.isLower = true) cs := by
  fun_induction isTemplate cs with
  | case1 => exact .nil
  | case2 c rest ih =>
    rw [Bool.and_eq_true] at h
    exact .place (by simpa using h.1) (ih h.2)
  | case3 c rest _ ih =>
    rw [Bool.and_eq_true] at h
    refine .char h.1 ?_ (ih h.2)
    rintro rfl
    cases h.1

/-- The rules for plurals in the order in which they are tried. -/
def pluralRules : List Rule := (Rules.plural ++ Rules.uncountableEndings).reverse

/-- The rule that comes last, and matches everywhere. -/
def plainRule : Rule := ⟨.optional (.text "s"), "s"⟩

/-- The rules that look for an ending. -/
def endingRules : List Rule := (Rules.plural.tail ++ Rules.uncountableEndings).reverse

theorem pluralRules_eq : pluralRules = endingRules ++ [plainRule] := rfl

/-- What is read off the tables, once: what the rules write, that none of them looks for an ending
with an underscore, and what stands in the irregular and the uncountable words. -/
theorem tables_plural :
    (∀ rule ∈ pluralRules, isTemplate rule.placement.toList = true ∧
      lower rule.placement.toList = rule.placement.toList) ∧
    (∀ rule ∈ endingRules, rule.ending.excludes '_' false = true) ∧
    (∀ row ∈ Rules.irregular, row.2.toList.all Char.isLower = true ∧
      '_' ∉ row.1.toList ∧ '_' ∉ row.2.toList) ∧
    ∀ w ∈ Rules.uncountable, '_' ∉ w.toList := by
  decide +kernel

theorem isTemplate_placement : ∀ rule ∈ pluralRules,
    isTemplate rule.placement.toList = true ∧
      lower rule.placement.toList = rule.placement.toList :=
  tables_plural.1

theorem excludes_underscore : ∀ rule ∈ endingRules, rule.ending.excludes '_' false = true :=
  tables_plural.2.1

theorem isLower_irregular : ∀ row ∈ Rules.irregular, ∀ c ∈ row.2.toList, c.isLower = true :=
  fun row hrow => List.all_eq_true.mp (tables_plural.2.2.1 row hrow).1

theorem underscore_notMem_irregular :
    ∀ row ∈ Rules.irregular, '_' ∉ row.1.toList ∧ '_' ∉ row.2.toList :=
  fun row hrow => (tables_plural.2.2.1 row hrow).2

theorem underscore_notMem_uncountable : ∀ w ∈ Rules.uncountable, '_' ∉ w.toList :=
  tables_plural.2.2.2

/-! ## One word -/

section Word

variable {word : List Char}

theorem restoreCase_eq_self {token : List Char} (hword : lower word = word)
    (htoken : lower token = token) : restoreCase word token = token := by
  unfold restoreCase
  split
  · rfl
  · rw [if_pos hword.symm, htoken]

/-- A rule writes characters of the word and lower-case letters. -/
theorem mem_of_replace? {rule : Rule} (hrule : rule ∈ pluralRules)
    (hword : ∀ c ∈ word, isSnake c = true) {result : List Char}
    (h : rule.replace? word = some result) : ∀ c ∈ result, c ∈ word ∨ c.isLower = true := by
  obtain ⟨⟨stem, ending, groups⟩, hsearch, rfl⟩ := Option.map_eq_some_iff.mp h
  obtain ⟨hstem, hending, hgroups⟩ := Pattern.subset_of_searchEnd? hsearch
  obtain ⟨htemplate, hplacement⟩ := isTemplate_placement rule hrule
  have hlower : lower word = word := lower_of_isSnake hword
  have hchars : ∀ {cs}, cs ⊆ word → ∀ c ∈ cs, (c ∈ word ∨ c.isLower = true) ∧ c ≠ '$' :=
    fun hcs c hc => ⟨.inl (hcs hc), ne_dollar_of_isSnake (hword c (hcs hc))⟩
  have htexts : ∀ t ∈ (ending :: groups).map (restoreCase word), ∀ c ∈ t,
      (c ∈ word ∨ c.isLower = true) ∧ c ≠ '$' := by
    intro t ht
    obtain ⟨text, htext, rfl⟩ := List.mem_map.mp ht
    have hsubset : text ⊆ word := by
      rcases List.mem_cons.mp htext with rfl | htext
      · exact hending
      · exact hgroups text htext
    rw [restoreCase_eq_self hlower (lower_of_isSnake fun c hc => hword c (hsubset hc))]
    exact hchars hsubset
  have hfilled : Template (fun c => c ∈ word ∨ c.isLower = true) rule.placement.toList :=
    (template_of_isTemplate htemplate).mono fun _ hc => .inr hc
  dsimp only
  rw [restoreCase_eq_self hlower hplacement]
  exact ((Template.of_chars (hchars hstem)).append (hfilled.fillPlaces htexts)).dropPlaces

theorem irregularForm?_plural {token form : List Char}
    (h : irregularForm? .plural token = some form) :
    form = token ∨ ∃ row ∈ Rules.irregular, row.1.toList = token ∧ row.2.toList = form := by
  unfold irregularForm? at h
  dsimp only at h
  split at h
  · exact .inl (Option.some.inj h).symm
  · obtain ⟨before, after, hrows, _⟩ := List.lookup_eq_some_iff.mp h
    have hmem : (token, form) ∈ before ++ (token, form) :: after :=
      List.mem_append_right before List.mem_cons_self
    rw [← hrows] at hmem
    obtain ⟨row, hrow, heq⟩ := List.mem_map.mp hmem
    cases heq
    exact .inr ⟨row, List.mem_reverse.mp hrow, rfl, rfl⟩

/-- The plural of a word is made of its characters and of lower-case letters. -/
theorem mem_inflectWord_plural (hword : ∀ c ∈ word, isSnake c = true) :
    ∀ c ∈ inflectWord .plural word, c ∈ word ∨ c.isLower = true := by
  have hlower : lower word = word := lower_of_isSnake hword
  unfold inflectWord
  rw [hlower]
  dsimp only
  split
  · rename_i form hform
    rcases irregularForm?_plural hform with rfl | ⟨row, hrow, _, rfl⟩
    · rw [restoreCase_eq_self hlower hlower]
      exact fun c hc => .inl hc
    · have hletters := isLower_irregular row hrow
      rw [restoreCase_eq_self hlower (lower_of_isSnake fun c hc =>
        isSnake_of_isLower (hletters c hc))]
      exact fun c hc => .inr (hletters c hc)
  · split
    · exact fun c hc => .inl hc
    · show ∀ c ∈ (pluralRules.findSome? (·.replace? word)).getD word, _
      cases hfound : pluralRules.findSome? (·.replace? word) with
      | none => exact fun c hc => .inl hc
      | some result =>
        obtain ⟨rule, hrule, hresult⟩ := List.exists_of_findSome?_eq_some hfound
        exact mem_of_replace? hrule hword hresult

end Word

/-! ## A name that ends in an underscore -/

section Underscore

variable {before : List Char}

theorem irregularForm?_underscore (before : List Char) :
    irregularForm? .plural (before ++ ['_']) = none := by
  have hmem : '_' ∈ before ++ ['_'] := List.mem_append_right _ List.mem_cons_self
  unfold irregularForm?
  dsimp only
  have hpartner : ∀ rows : List (List Char × List Char), (∀ row ∈ rows, '_' ∉ row.1) →
      rows.lookup (before ++ ['_']) = none := by
    intro rows hrows
    rw [List.lookup_eq_none_iff]
    intro row hrow
    have hne : before ++ ['_'] ≠ row.1 := fun heq => hrows row hrow (heq ▸ hmem)
    simpa using hne
  rw [hpartner, hpartner]
  · rfl
  · intro row hrow
    obtain ⟨source, hsource, rfl⟩ := List.mem_map.mp hrow
    exact (underscore_notMem_irregular source (List.mem_reverse.mp hsource)).1
  · intro row hrow
    obtain ⟨swapped, hswapped, rfl⟩ := List.mem_map.mp hrow
    obtain ⟨source, hsource, rfl⟩ := List.mem_map.mp hswapped
    exact (underscore_notMem_irregular source (List.mem_reverse.mp hsource)).2

theorem replace?_underscore {rule : Rule} (h : rule ∈ endingRules) (before : List Char) :
    rule.replace? (before ++ ['_']) = none := by
  rw [Rule.replace?, Pattern.searchEnd?_concat (excludes_underscore rule h), Option.map_none]

theorem isSnake_concat_underscore (h : ∀ c ∈ before, isSnake c = true) :
    ∀ c ∈ before ++ ['_'], isSnake c = true := by
  intro c hc
  rcases List.mem_append.mp hc with hc | hc
  · exact h c hc
  · obtain rfl := List.mem_singleton.mp hc
    decide

theorem replace?_plainRule_underscore (h : ∀ c ∈ before, isSnake c = true) :
    plainRule.replace? (before ++ ['_']) = some (before ++ ['_'] ++ ['s']) := by
  have hexcludes : (Pattern.text "s").excludes '_' false = true := by decide
  have hsearch : plainRule.ending.searchEnd? [] (before ++ ['_']) =
      some (before ++ ['_'], [], []) := Pattern.searchEnd?_optional hexcludes rfl
  have hword := isSnake_concat_underscore h
  have hplacement : restoreCase (before ++ ['_']) plainRule.placement.toList = ['s'] :=
    restoreCase_eq_self (lower_of_isSnake hword)
      (lower_of_isSnake (List.forall_mem_singleton.mpr rfl))
  have hplural : ∀ c ∈ before ++ ['_'] ++ ['s'], c ≠ '$' := by
    intro c hc
    rcases List.mem_append.mp hc with hc | hc
    · exact ne_dollar_of_isSnake (hword c hc)
    · obtain rfl := List.mem_singleton.mp hc
      decide
  rw [Rule.replace?, hsearch, Option.map_some]
  dsimp only
  rw [hplacement]
  exact congrArg some (dropPlaces_eq_self hplural)

/-- A name that ends in an underscore takes a plain `s`. -/
theorem inflectWord_underscore (h : ∀ c ∈ before, isSnake c = true) :
    inflectWord .plural (before ++ ['_']) = before ++ ['_'] ++ ['s'] := by
  have hlower : lower (before ++ ['_']) = before ++ ['_'] :=
    lower_of_isSnake (isSnake_concat_underscore h)
  have hcountable : Rules.uncountable.any (·.toList = before ++ ['_']) = false := by
    rw [List.any_eq_false]
    intro w hw
    have hne : w.toList ≠ before ++ ['_'] := by
      intro heq
      refine underscore_notMem_uncountable w hw ?_
      rw [heq]
      exact List.mem_append_right _ List.mem_cons_self
    simpa using hne
  have hfound : pluralRules.findSome? (Rule.replace? · (before ++ ['_'])) =
      some (before ++ ['_'] ++ ['s']) := by
    have hendings : endingRules.findSome? (Rule.replace? · (before ++ ['_'])) = none :=
      List.findSome?_eq_none_iff.mpr fun rule hrule => replace?_underscore hrule before
    rw [pluralRules_eq, List.findSome?_append, hendings, Option.none_or, List.findSome?_singleton,
      replace?_plainRule_underscore h]
  have hrules : inflectWord .plural (before ++ ['_']) =
      (pluralRules.findSome? (Rule.replace? · (before ++ ['_']))).getD (before ++ ['_']) := by
    unfold inflectWord
    rw [hlower]
    dsimp only
    rw [irregularForm?_underscore]
    dsimp only
    rw [hcountable, if_neg (by simp)]
    rfl
  rw [hrules, hfound, Option.getD_some]

end Underscore

/-! ## Names -/

section Name

variable {name : List Char}

theorem lastSegment_append (name : List Char) :
    (lastSegment name).1 ++ (lastSegment name).2 = name := by
  have hsuffix : (lastSegment name).2 <:+ name := by
    have hreverse := List.reverse_suffix.mpr (List.takeWhile_prefix (l := name.reverse) (· ≠ '_'))
    rwa [List.reverse_reverse] at hreverse
  obtain ⟨before, hbefore⟩ := hsuffix
  have htake : (lastSegment name).1 = before := by
    have hlength := congrArg List.length hbefore
    rw [List.length_append] at hlength
    show name.take (name.length - (lastSegment name).2.length) = before
    rw [← hlength, Nat.add_sub_cancel]
    conv => lhs; rw [← hbefore]
    exact List.take_left
  rw [htake, hbefore]

theorem underscore_notMem_lastSegment (name : List Char) : '_' ∉ (lastSegment name).2 := by
  intro hmem
  have hne := List.mem_takeWhile_imp (List.mem_reverse.mp hmem)
  simp at hne

/-- Nothing stands behind the last underscore only if it is the last character, or there is no
character. -/
theorem eq_nil_or_concat_of_lastSegment (h : (lastSegment name).2 = []) :
    name = [] ∨ ∃ before, name = before ++ ['_'] := by
  rcases List.eq_nil_or_concat name with rfl | ⟨before, c, rfl⟩
  · exact .inl rfl
  · have hrun : (c :: before.reverse).takeWhile (· ≠ '_') = [] := by
      have hreverse := List.reverse_eq_nil_iff.mp h
      rwa [List.concat_eq_append, List.reverse_append] at hreverse
    by_cases hc : c = '_'
    · exact .inr ⟨before, by rw [hc, List.concat_eq_append]⟩
    · rw [List.takeWhile_cons_of_pos (by simpa using hc)] at hrun
      cases hrun

/-- The plural of a name as the plural of its last segment. -/
theorem inflect_plural_cases (h : ∀ c ∈ name, isSnake c = true) :
    inflect .plural name = name ∨
    (∃ before, name = before ++ ['_'] ∧ inflect .plural name = before ++ ['_'] ++ ['s']) ∨
    ∃ before segment, name = before ++ segment ∧ '_' ∉ segment ∧
      inflect .plural name = before ++ inflectWord .plural segment := by
  have hinflect : inflect .plural name = if (lastSegment name).2.isEmpty then
      inflectWord .plural name
    else (lastSegment name).1 ++ inflectWord .plural (lastSegment name).2 := rfl
  rw [hinflect]
  split
  · rename_i hempty
    rcases eq_nil_or_concat_of_lastSegment (List.isEmpty_iff.mp hempty) with rfl | ⟨before, rfl⟩
    · exact .inl rfl
    · have hbefore : ∀ c ∈ before, isSnake c = true :=
        fun c hc => h c (List.mem_append_left _ hc)
      exact .inr (.inl ⟨before, rfl, inflectWord_underscore hbefore⟩)
  · exact .inr (.inr ⟨_, _, (lastSegment_append name).symm, underscore_notMem_lastSegment name, rfl⟩)

theorem mem_inflect_plural (h : ∀ c ∈ name, isSnake c = true) :
    ∀ c ∈ inflect .plural name, isSnake c = true := by
  rcases inflect_plural_cases h with hself | ⟨before, rfl, hplural⟩ | ⟨before, segment, rfl, _, hplural⟩
  · rwa [hself]
  · rw [hplural]
    intro c hc
    rcases List.mem_append.mp hc with hc | hc
    · exact h c hc
    · obtain rfl := List.mem_singleton.mp hc
      decide
  · rw [hplural]
    intro c hc
    have hsegment : ∀ c ∈ segment, isSnake c = true := fun c hc => h c (List.mem_append_right _ hc)
    rcases List.mem_append.mp hc with hc | hc
    · exact h c (List.mem_append_left _ hc)
    · rcases mem_inflectWord_plural hsegment c hc with hc | hlower
      · exact hsegment c hc
      · exact isSnake_of_isLower hlower

/-- A name and its plural are apart in more than underscores. -/
theorem bare_inflect_plural_ne (h : ∀ c ∈ name, isSnake c = true)
    (hne : inflect .plural name ≠ name) : bare (inflect .plural name) ≠ bare name := by
  rcases inflect_plural_cases h with hself | ⟨before, rfl, hplural⟩ |
    ⟨before, segment, rfl, hsegment, hplural⟩
  · exact absurd hself hne
  · rw [hplural, bare_append]
    intro heq
    have hlength := congrArg List.length heq
    simp [bare] at hlength
  · have hword : ∀ c ∈ segment, isSnake c = true := fun c hc => h c (List.mem_append_right _ hc)
    have hinflected : '_' ∉ inflectWord .plural segment := by
      intro hmem
      rcases mem_inflectWord_plural hword '_' hmem with hmem | hlower
      · exact hsegment hmem
      · cases hlower
    rw [hplural] at hne ⊢
    rw [bare_append, bare_append, bare_of_notMem hsegment, bare_of_notMem hinflected]
    intro heq
    exact hne (congrArg (before ++ ·) (List.append_cancel_left heq))

end Name

end Tablewright.Noun

namespace Tablewright.Names

open Tablewright.Text Tablewright.Noun

variable {name : String}

theorem asciiLower_of_isSnake (h : IsSnake name) : asciiLower name = name := by
  rw [asciiLower, map_toLower_of_isSnake h, String.ofList_toList]

/-- A name that is not its own plural has two fields, one for a value and one for a sequence. -/
theorem field_ne_pluralField (h : IsSnake name) (hplural : isPlural name = false) :
    field name ≠ pluralField name := by
  have hne : inflect .plural name.toList ≠ name.toList := by
    intro heq
    rw [isPlural, asciiLower_of_isSnake h, pluralOf, heq, String.ofList_toList] at hplural
    simp at hplural
  unfold pluralField
  dsimp only
  split
  · intro heq
    have hlength := congrArg String.length heq
    rw [String.length_append] at hlength
    have hs : ("s" : String).length = 1 := rfl
    omega
  · intro heq
    have hsnake : IsSnake (pluralOf name) := by
      unfold IsSnake
      rw [pluralOf, String.toList_ofList]
      exact mem_inflect_plural h
    have hbare := congrArg (fun s : String => s.toList.map Char.toLower) heq
    rw [map_toLower_field h] at hbare
    have hfield : acronymId (pascal (pluralOf name)) = field (pluralOf name) := rfl
    rw [hfield, map_toLower_field hsnake, pluralOf, String.toList_ofList] at hbare
    exact bare_inflect_plural_ne h hne hbare.symm

end Tablewright.Names
