import Tablewright.Proofs.Yaml.Values

/-! Printed values hold printable characters only, so that reading neither refuses one nor takes it
for another kind of line break. -/

namespace Tablewright.Yaml.Written

open Text

theorem isPrintable_upperHex {width n : Nat} {c : Char} (h : c ∈ upperHex width n) :
    isPrintable c = true := by
  have hdigits : ∀ d < 16, isPrintable d.digitChar.toUpper = true := by decide
  induction width generalizing n with
  | zero => cases h
  | succ width ih =>
    rw [upperHex, hex, List.map_append, List.mem_append] at h
    rcases h with h | h
    · exact ih h
    · rw [List.map_singleton, List.mem_singleton] at h
      rw [h]
      exact hdigits (n % 16) (Nat.mod_lt n (by decide))

theorem isPrintable_coded {a c : Char} (h : c ∈ coded a) : isPrintable c = true := by
  obtain ⟨letter, width, hcoded, _, hwidth, _⟩ := Scalar.coded_eq a
  have hletter : isPrintable letter = true := by
    unfold Scalar.codeWidth? at hwidth
    split at hwidth <;> first | rfl | cases hwidth
  rw [hcoded, List.mem_cons, List.mem_cons] at h
  rcases h with rfl | rfl | h
  · rfl
  · exact hletter
  · exact isPrintable_upperHex h

theorem isPrintable_escapeLetter {c letter : Char} (h : escapeLetter? c = some letter) :
    isPrintable letter = true := by
  unfold escapeLetter? at h
  split at h <;> cases h <;> rfl

theorem isPrintable_doubleChar {a c : Char} (h : c ∈ doubleChar a) : isPrintable c = true := by
  unfold doubleChar at h
  split at h
  · next letter hletter =>
    simp only [List.mem_cons, List.not_mem_nil, or_false] at h
    rcases h with rfl | rfl
    · rfl
    · exact isPrintable_escapeLetter hletter
  · split at h
    · next hprint => rwa [List.mem_singleton.mp h]
    · exact isPrintable_coded h

theorem isPrintable_doubleQuoted {cs : List Char} {c : Char} (h : c ∈ doubleQuoted cs) :
    isPrintable c = true := by
  simp only [doubleQuoted, List.cons_append, List.mem_cons, List.mem_append, List.mem_flatMap,
    List.not_mem_nil, or_false] at h
  rcases h with rfl | ⟨a, _, h⟩ | rfl
  · rfl
  · exact isPrintable_doubleChar h
  · rfl

theorem mem_indented {column : Nat} {atStart : Bool} {cs : List Char} {c : Char}
    (h : c ∈ indented column atStart cs) : c = ' ' ∨ c ∈ cs := by
  induction cs generalizing atStart with
  | nil => cases h
  | cons d cs ih =>
    rw [indented] at h
    split at h
    · rcases List.mem_cons.mp h with rfl | h
      · exact .inr List.mem_cons_self
      · exact (ih h).imp_right (List.mem_cons_of_mem d)
    · rw [List.mem_append, List.mem_cons] at h
      rcases h with h | rfl | h
      · split at h
        · exact .inl (List.eq_of_mem_replicate h)
        · cases h
      · exact .inr List.mem_cons_self
      · exact (ih h).imp_right (List.mem_cons_of_mem d)

theorem isPrintable_singleQuoted {column : Nat} {cs : List Char} {c : Char}
    (hcs : ∀ d ∈ cs, isPrintable d = true) (h : c ∈ singleQuoted column cs) :
    isPrintable c = true := by
  simp only [singleQuoted, List.cons_append, List.mem_cons, List.mem_append, List.not_mem_nil,
    or_false] at h
  rcases h with rfl | (h | h) | rfl
  · rfl
  · rcases mem_indented h with rfl | h
    · rfl
    · obtain ⟨a, ha, hc⟩ := List.mem_flatMap.mp h
      unfold singleChar at hc
      split at hc
      · simp only [List.mem_cons, List.not_mem_nil, or_false, or_self] at hc
        rw [hc]
        rfl
      · rw [List.mem_singleton.mp hc]
        exact hcs a ha
  · split at h
    · rw [List.eq_of_mem_replicate h]
      rfl
    · cases h
  · rfl

theorem isPrintable_line {column : Nat} {s : String} (hs : '\n' ∉ s.toList) {c : Char}
    (h : c ∈ line column s) : isPrintable c = true := by
  rcases Reads.style_cases hs with ⟨hstyle, _, hunquoted⟩ | ⟨hstyle, hfits⟩ | hstyle
  · simp only [line, hstyle, List.mem_append, List.mem_singleton] at h
    rcases h with h | rfl
    · exact hunquoted.clean c h
    · rfl
  · simp only [line, hstyle, List.mem_append, List.mem_singleton] at h
    rcases h with h | rfl
    · simp only [fitsSingle, keepsLines, isClean, Bool.and_eq_true, List.all_eq_true] at hfits
      exact isPrintable_singleQuoted hfits.1.1 h
    · rfl
  · simp only [line, hstyle, List.mem_append, List.mem_singleton] at h
    rcases h with h | rfl
    · exact isPrintable_doubleQuoted h
    · rfl

end Tablewright.Yaml.Written

namespace Tablewright.Value

open Yaml

/-- The value is printable as an item and as a field. -/
def Printable (v : Value) : Prop :=
  ∀ column, (∀ c ∈ yamlItem column v, isPrintable c = true) ∧
    ∀ c ∈ yamlField column v, isPrintable c = true

theorem isPrintable_spaces {n : Nat} {c : Char} (h : c ∈ Written.spaces n) :
    isPrintable c = true := by
  rw [List.eq_of_mem_replicate h]
  rfl

theorem isPrintable_yamlItems {vs : List Value} (h : ∀ v ∈ vs, Printable v) (column : Nat)
    {lead : List Char} (hlead : ∀ c ∈ lead, isPrintable c = true) :
    ∀ c ∈ yamlItems column lead vs, isPrintable c = true := by
  induction vs generalizing lead with
  | nil => simp [yamlItems]
  | cons v vs ih =>
    obtain ⟨hv, hvs⟩ := List.forall_mem_cons.mp h
    intro c hc
    simp only [yamlItems, List.mem_append, List.mem_cons] at hc
    rcases hc with (hc | rfl | hc) | hc
    · exact hlead c hc
    · rfl
    · exact (hv column).1 c hc
    · exact ih hvs (fun _ hc => isPrintable_spaces hc) c hc

theorem isPrintable_yamlFields {fs : List (String × Value)} (hkeys : ∀ f ∈ fs, IsKey f.1)
    (h : ∀ f ∈ fs, Printable f.2) (column : Nat) {lead : List Char}
    (hlead : ∀ c ∈ lead, isPrintable c = true) :
    ∀ c ∈ yamlFields column lead fs, isPrintable c = true := by
  induction fs generalizing lead with
  | nil => simp [yamlFields]
  | cons f fs ih =>
    obtain ⟨hkey, hkeys⟩ := List.forall_mem_cons.mp hkeys
    obtain ⟨hf, hfs⟩ := List.forall_mem_cons.mp h
    intro c hc
    simp only [yamlFields, List.mem_append, List.mem_cons] at hc
    rcases hc with ((hc | hc) | rfl | hc) | hc
    · exact hlead c hc
    · exact isPrintable_of_isWordChar (hkey.word c hc)
    · rfl
    · exact (hf column).2 c hc
    · exact ih hkeys hfs (fun _ hc => isPrintable_spaces hc) c hc

theorem printable_of_line {v : Value} {text : Nat → List Char}
    (hitem : ∀ column, yamlItem column v = ' ' :: text column)
    (hfield : ∀ column, yamlField column v = ' ' :: text column)
    (h : ∀ column, ∀ c ∈ text column, isPrintable c = true) : Printable v := by
  intro column
  rw [hitem, hfield]
  have hline : ∀ c ∈ ' ' :: text column, isPrintable c = true :=
    List.forall_mem_cons.mpr ⟨rfl, h column⟩
  exact ⟨hline, hline⟩

theorem Storable.printable {v : Value} (h : Storable v) : Printable v := by
  induction h with
  | null => exact printable_of_line (fun _ => rfl) (fun _ => rfl) fun _ => List.all_eq_true.mp rfl
  | flag b =>
    cases b with
    | true => exact printable_of_line (fun _ => rfl) (fun _ => rfl) fun _ => List.all_eq_true.mp rfl
    | false => exact printable_of_line (fun _ => rfl) (fun _ => rfl) fun _ => List.all_eq_true.mp rfl
  | number n =>
    refine printable_of_line (fun _ => rfl) (fun _ => rfl) fun _ c hc => ?_
    rcases List.mem_append.mp hc with hc | hc
    · exact isPrintable_of_isWordChar (isWordChar_toString n c hc)
    · rw [List.mem_singleton.mp hc]
      rfl
  | text h =>
    exact printable_of_line (fun _ => rfl) (fun _ => rfl) fun _ _ hc =>
      Written.isPrintable_line h hc
  | @list vs h ih =>
    cases vs with
    | nil => exact printable_of_line (fun _ => rfl) (fun _ => rfl) fun _ => List.all_eq_true.mp rfl
    | cons v vs =>
      intro column
      refine ⟨isPrintable_yamlItems ih (column + 2) (List.all_eq_true.mp rfl), ?_⟩
      exact List.forall_mem_cons.mpr
        ⟨rfl, isPrintable_yamlItems ih column fun _ hc => isPrintable_spaces hc⟩
  | @record fs hne hkeys h ih =>
    cases fs with
    | nil => exact absurd rfl hne
    | cons f fs =>
      intro column
      refine ⟨isPrintable_yamlFields hkeys ih (column + 2) (List.all_eq_true.mp rfl), ?_⟩
      exact List.forall_mem_cons.mpr
        ⟨rfl, isPrintable_yamlFields hkeys ih (column + 2) fun _ hc => isPrintable_spaces hc⟩

end Tablewright.Value
