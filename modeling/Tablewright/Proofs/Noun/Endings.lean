import Tablewright.Noun.Inflection

/-! Where the endings of nouns can be found, and what replaces them. A match takes nothing away from
the text, so what a rule writes is made of characters of the word and letters of its placement. And
a pattern says what the last character before a cursor is not: a text that ends with that character
has no such ending. -/

namespace Tablewright.Noun

open Tablewright.Text

/-! ## Cursors in a text -/

/-- The cursor stands in the text, and the groups were read from it. -/
structure Cursor.Reads (text : List Char) (cur : Cursor) : Prop where
  text_eq : cur.passed.reverse ++ cur.ahead = text
  groups : ∀ g ∈ cur.groups, g ⊆ text

theorem Cursor.of_mem_advance {cur after : Cursor} {accepts : Char → Bool}
    (h : after ∈ cur.advance accepts) : ∃ c rest, cur.ahead = c :: rest ∧ accepts c = true ∧
      after = { cur with passed := c :: cur.passed, ahead := rest } := by
  unfold advance at h
  split at h
  · cases h
  · rename_i c rest hahead
    rw [List.mem_ite_nil_right] at h
    exact ⟨c, rest, hahead, h.1, List.mem_singleton.mp h.2⟩

theorem Cursor.Reads.advance {text : List Char} {cur after : Cursor} {accepts : Char → Bool}
    (h : cur.Reads text) (ha : after ∈ cur.advance accepts) : after.Reads text := by
  obtain ⟨c, rest, hahead, _, rfl⟩ := Cursor.of_mem_advance ha
  refine ⟨?_, h.groups⟩
  rw [← h.text_eq, hahead, List.reverse_cons, List.append_assoc]
  rfl

theorem Cursor.Reads.since_subset {text : List Char} {earlier : Cursor} (h : earlier.Reads text)
    (cur : Cursor) : cur.since earlier ⊆ text := by
  intro c hc
  rw [← h.text_eq]
  exact List.mem_append_right _ (List.mem_of_mem_take hc)

namespace Pattern

/-- A match stays in the text. -/
theorem reads_of_mem_runs {text : List Char} (p : Pattern) {cur after : Cursor}
    (h : cur.Reads text) (ha : after ∈ p.runs cur) : after.Reads text := by
  induction p generalizing cur after with
  | empty =>
    obtain rfl := List.mem_singleton.mp ha
    exact h
  | letter | oneOf | noneOf | beyondAscii | nonWord => exact h.advance ha
  | wordEdge | start =>
    rw [runs, List.mem_ite_nil_right] at ha
    obtain rfl := List.mem_singleton.mp ha.2
    exact h
  | seq p q ihp ihq =>
    obtain ⟨between, hbetween, ha⟩ := List.mem_flatMap.mp ha
    exact ihq (ihp h hbetween) ha
  | either p q ihp ihq => exact (List.mem_append.mp ha).elim (ihp h) (ihq h)
  | optional p ih =>
    rcases List.mem_append.mp ha with ha | ha
    · exact ih h ha
    · obtain rfl := List.mem_singleton.mp ha
      exact h
  | group p ih =>
    obtain ⟨found, hfound, rfl⟩ := List.mem_map.mp ha
    have hreads := ih h hfound
    refine ⟨hreads.text_eq, fun g hg => ?_⟩
    rcases List.mem_append.mp hg with hg | hg
    · exact hreads.groups g hg
    · obtain rfl := List.mem_singleton.mp hg
      exact h.since_subset _

/-- Whether the character before the cursor is not `c` once the pattern has matched. `known` says
that it was not before. -/
def excludes (c : Char) (known : Bool) : Pattern → Bool
  | .empty | .wordEdge | .start => known
  | .letter l => !sameLetter l c
  | .oneOf ls => !ls.any (sameLetter · c)
  | .noneOf ls => ls.any (sameLetter · c)
  | .beyondAscii => !isBeyondAscii c
  | .nonWord => isWordCharacter c
  | .seq p q => q.excludes c (p.excludes c known)
  | .either p q => p.excludes c known && q.excludes c known
  | .optional p => p.excludes c known && known
  | .group p => p.excludes c known

theorem head?_ne_of_advance {c : Char} {cur after : Cursor} {accepts : Char → Bool}
    (hc : accepts c = false) (ha : after ∈ cur.advance accepts) : after.passed.head? ≠ some c := by
  obtain ⟨d, rest, _, hd, rfl⟩ := Cursor.of_mem_advance ha
  intro heq
  obtain rfl : d = c := by simpa using heq
  rw [hc] at hd
  cases hd

theorem head?_ne_of_excludes {c : Char} (p : Pattern) {known : Bool} {cur after : Cursor}
    (hknown : known = true → cur.passed.head? ≠ some c) (hp : p.excludes c known = true)
    (ha : after ∈ p.runs cur) : after.passed.head? ≠ some c := by
  induction p generalizing known cur after with
  | empty =>
    obtain rfl := List.mem_singleton.mp ha
    exact hknown hp
  | letter | oneOf | beyondAscii => exact head?_ne_of_advance (by simpa [excludes] using hp) ha
  | noneOf | nonWord =>
    simp only [excludes] at hp
    exact head?_ne_of_advance (by simp [hp]) ha
  | wordEdge | start =>
    rw [runs, List.mem_ite_nil_right] at ha
    obtain rfl := List.mem_singleton.mp ha.2
    exact hknown hp
  | seq p q ihp ihq =>
    obtain ⟨between, hbetween, ha⟩ := List.mem_flatMap.mp ha
    exact ihq (fun hknown' => ihp hknown hknown' hbetween) hp ha
  | either p q ihp ihq =>
    rw [excludes, Bool.and_eq_true] at hp
    exact (List.mem_append.mp ha).elim (ihp hknown hp.1) (ihq hknown hp.2)
  | optional p ih =>
    rw [excludes, Bool.and_eq_true] at hp
    rcases List.mem_append.mp ha with ha | ha
    · exact ih hknown hp.1 ha
    · obtain rfl := List.mem_singleton.mp ha
      exact hknown hp.2
  | group p ih =>
    obtain ⟨found, hfound, rfl⟩ := List.mem_map.mp ha
    have hfound := ih hknown hp hfound
    exact hfound

/-! ## Searching for an ending -/

theorem ending?_eq_some {p : Pattern} {cur found : Cursor} (h : p.ending? cur = some found) :
    found ∈ p.runs cur ∧ found.ahead = [] :=
  ⟨List.mem_of_find?_eq_some h, by simpa using List.find?_some h⟩

/-- What a search finds: a place in the text from which the pattern reaches its end. -/
theorem exists_of_searchEnd? {p : Pattern} {passed cs stem ending : List Char}
    {groups : List (List Char)} (h : p.searchEnd? passed cs = some (stem, ending, groups)) :
    stem ++ ending = passed.reverse ++ cs ∧
      ∃ found, p.ending? ⟨stem.reverse, ending, []⟩ = some found ∧ groups = found.groups := by
  induction cs generalizing passed with
  | nil =>
    obtain ⟨found, hfound, heq⟩ := Option.map_eq_some_iff.mp h
    cases heq
    exact ⟨rfl, found, by simpa using hfound, rfl⟩
  | cons c rest ih =>
    rw [searchEnd?] at h
    split at h
    · rename_i found hfound
      cases h
      exact ⟨rfl, found, by simpa using hfound, rfl⟩
    · obtain ⟨htext, hfound⟩ := ih h
      refine ⟨?_, hfound⟩
      rw [htext, List.reverse_cons, List.append_assoc]
      rfl

theorem subset_of_searchEnd? {p : Pattern} {word stem ending : List Char}
    {groups : List (List Char)} (h : p.searchEnd? [] word = some (stem, ending, groups)) :
    stem ⊆ word ∧ ending ⊆ word ∧ ∀ g ∈ groups, g ⊆ word := by
  obtain ⟨htext, found, hfound, rfl⟩ := exists_of_searchEnd? h
  rw [List.reverse_nil, List.nil_append] at htext
  have hreads : (Cursor.mk stem.reverse ending []).Reads word :=
    ⟨by rw [List.reverse_reverse, htext], by simp⟩
  refine ⟨?_, ?_, (reads_of_mem_runs p hreads (ending?_eq_some hfound).1).groups⟩
  · rw [← htext]
    exact List.subset_append_left _ _
  · rw [← htext]
    exact List.subset_append_right _ _

section Excluded

variable {p : Pattern} {c : Char} {before : List Char}

/-- In a text that ends with the excluded character, no match reaches the end. -/
theorem ahead_ne_nil_of_excludes (hp : p.excludes c false = true) {cur after : Cursor}
    (hcur : cur.Reads (before ++ [c])) (ha : after ∈ p.runs cur) : after.ahead ≠ [] := by
  intro hahead
  have hpassed := (reads_of_mem_runs p hcur ha).text_eq
  rw [hahead, List.append_nil, List.reverse_eq_append_iff] at hpassed
  exact head?_ne_of_excludes p (by simp) hp ha (by rw [hpassed]; rfl)

theorem searchEnd?_concat (hp : p.excludes c false = true) (before : List Char) :
    p.searchEnd? [] (before ++ [c]) = none := by
  rw [Option.eq_none_iff_forall_not_mem]
  rintro ⟨stem, ending, groups⟩ h
  obtain ⟨htext, found, hfound, _⟩ := exists_of_searchEnd? h
  obtain ⟨hruns, hahead⟩ := ending?_eq_some hfound
  have hreads : (Cursor.mk stem.reverse ending []).Reads (before ++ [c]) :=
    ⟨by rw [List.reverse_reverse, htext]; rfl, by simp⟩
  exact ahead_ne_nil_of_excludes hp hreads hruns hahead

/-- Where the pattern may also match nothing, it matches nothing, at the end. -/
theorem searchEnd?_optional (hp : p.excludes c false = true) {passed rest : List Char}
    (htext : passed.reverse ++ rest = before ++ [c]) :
    (optional p).searchEnd? passed rest = some (before ++ [c], [], []) := by
  induction rest generalizing passed with
  | nil =>
    have hreads : (Cursor.mk passed [] []).Reads (before ++ [c]) := ⟨htext, by simp⟩
    have hnone : (p.runs ⟨passed, [], []⟩).find? (·.ahead.isEmpty) = none := by
      rw [List.find?_eq_none]
      exact fun after ha => by simpa using ahead_ne_nil_of_excludes hp hreads ha
    rw [searchEnd?, ending?, runs, List.find?_append, hnone, ← htext, List.append_nil]
    rfl
  | cons d rest ih =>
    have hreads : (Cursor.mk passed (d :: rest) []).Reads (before ++ [c]) := ⟨htext, by simp⟩
    have hnone : (optional p).ending? ⟨passed, d :: rest, []⟩ = none := by
      rw [ending?, List.find?_eq_none]
      intro after ha
      rcases List.mem_append.mp ha with ha | ha
      · simpa using ahead_ne_nil_of_excludes hp hreads ha
      · obtain rfl := List.mem_singleton.mp ha
        simp
    rw [searchEnd?, hnone]
    refine ih ?_
    rw [← htext, List.reverse_cons, List.append_assoc]
    rfl

end Excluded

end Pattern

/-! ## Filling a placement -/

theorem fillPlace_cons {c : Char} (hc : c ≠ '$') (digit : Char) (text rest : List Char) :
    fillPlace digit text (c :: rest) = c :: fillPlace digit text rest :=
  fillPlace.eq_2 _ _ _ _ fun _ _ heq _ => hc heq

theorem dropPlaces_cons {c : Char} (hc : c ≠ '$') (rest : List Char) :
    dropPlaces (c :: rest) = c :: dropPlaces rest :=
  dropPlaces.eq_3 _ _ (fun _ _ heq _ => hc heq) fun heq _ => hc heq

theorem dropPlaces_eq_self {cs : List Char} (h : ∀ c ∈ cs, c ≠ '$') : dropPlaces cs = cs := by
  induction cs with
  | nil => rfl
  | cons c rest ih =>
    obtain ⟨hc, hrest⟩ := List.forall_mem_cons.mp h
    rw [dropPlaces_cons hc, ih hrest]

/-- What is kept when one text is filled in is kept when all are. -/
theorem fillPlaces_induction {motive : List Char → Prop} {texts : List (List Char)}
    (hstep : ∀ text ∈ texts, ∀ digit cs, motive cs → motive (fillPlace digit text cs))
    {placement : List Char} (h : motive placement) : motive (fillPlaces placement texts) := by
  have hfold : ∀ pairs : List (List Char × Char), (∀ x ∈ pairs, x.1 ∈ texts) → ∀ acc, motive acc →
      motive (pairs.foldl (fun acc x => fillPlace x.2 x.1 acc) acc) := by
    intro pairs
    induction pairs with
    | nil => exact fun _ _ hacc => hacc
    | cons x rest ih =>
      intro hpairs acc hacc
      obtain ⟨hx, hrest⟩ := List.forall_mem_cons.mp hpairs
      exact ih hrest _ (hstep x.1 hx x.2 acc hacc)
  exact hfold _ (fun x hx => (List.of_mem_zip hx).1) placement h

/-- Characters with the property, and places for what was matched. -/
inductive Template (p : Char → Prop) : List Char → Prop
  | nil : Template p []
  | char {c : Char} {rest : List Char} (h : p c) (hc : c ≠ '$') (hrest : Template p rest) :
    Template p (c :: rest)
  | place {c : Char} {rest : List Char} (hc : c ≠ '$') (hrest : Template p rest) :
    Template p ('$' :: c :: rest)

namespace Template

variable {p : Char → Prop} {cs : List Char}

theorem of_chars (h : ∀ c ∈ cs, p c ∧ c ≠ '$') : Template p cs := by
  induction cs with
  | nil => exact .nil
  | cons c rest ih =>
    obtain ⟨hc, hrest⟩ := List.forall_mem_cons.mp h
    exact .char hc.1 hc.2 (ih hrest)

theorem mono {q : Char → Prop} (h : Template p cs) (hpq : ∀ c, p c → q c) : Template q cs := by
  induction h with
  | nil => exact .nil
  | char h hc _ ih => exact .char (hpq _ h) hc ih
  | place hc _ ih => exact .place hc ih

theorem append {rest : List Char} (h : Template p cs) (hrest : Template p rest) :
    Template p (cs ++ rest) := by
  induction h with
  | nil => exact hrest
  | char h hc _ ih => exact .char h hc ih
  | place hc _ ih => exact .place hc ih

theorem fillPlace (digit : Char) {text : List Char} (htext : ∀ c ∈ text, p c ∧ c ≠ '$')
    (h : Template p cs) : Template p (Noun.fillPlace digit text cs) := by
  induction h with
  | nil => exact .nil
  | char h hc _ ih =>
    rw [fillPlace_cons hc]
    exact .char h hc ih
  | place hc _ ih =>
    rw [Noun.fillPlace]
    split
    · exact (of_chars htext).append ih
    · rw [fillPlace_cons hc]
      exact .place hc ih

theorem fillPlaces {texts : List (List Char)} (htexts : ∀ t ∈ texts, ∀ c ∈ t, p c ∧ c ≠ '$')
    (h : Template p cs) : Template p (Noun.fillPlaces cs texts) :=
  fillPlaces_induction (fun text htext digit _ hcs => hcs.fillPlace digit (htexts text htext)) h

/-- Once the places that were not filled are dropped, the characters with the property remain. -/
theorem dropPlaces (h : Template p cs) : ∀ c ∈ Noun.dropPlaces cs, p c := by
  induction h with
  | nil => simp [Noun.dropPlaces]
  | char h hc _ ih =>
    rw [dropPlaces_cons hc]
    exact List.forall_mem_cons.mpr ⟨h, ih⟩
  | place _ _ ih =>
    rw [Noun.dropPlaces]
    exact ih

end Template

end Tablewright.Noun
