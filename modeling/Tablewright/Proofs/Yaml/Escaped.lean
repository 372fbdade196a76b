import Tablewright.Proofs.Yaml.Numerals
import Tablewright.Proofs.Yaml.Quoted

/-! Between double quotes every text can be written: what may not stand as it is has an escape, by a
letter or by its code. -/

namespace Tablewright.Yaml.Scalar

open Text Written

/-! ### Letters -/

theorem unescape?_letter {c letter : Char} (h : escapeLetter? c = some letter) :
    unescape? letter = some c ∧ isBreak letter = false := by
  unfold escapeLetter? at h
  split at h <;> cases h <;> exact ⟨rfl, rfl⟩

/-- What has no letter is neither a mark of the quoted text nor a tab or a break. -/
theorem ordinary_of_escapeLetter? {c : Char} (h : escapeLetter? c = none) :
    c ≠ '"' ∧ c ≠ '\\' ∧ c ≠ '\t' ∧ isBreak c = false := by
  refine ⟨?_, ?_, ?_, ?_⟩
  · rintro rfl; cases h
  · rintro rfl; cases h
  · rintro rfl; cases h
  · rw [Bool.eq_false_iff]
    intro hbreak
    simp only [isBreak, Bool.or_eq_true, beq_iff_eq] at hbreak
    rcases hbreak with (((rfl | rfl) | rfl) | rfl) | rfl <;> cases h

theorem doubleRun?_letter {c letter : Char} (h : escapeLetter? c = some letter) (rest : List Char) :
    doubleRun? 0 0 ('\\' :: letter :: rest) = (doubleRun? 0 0 rest).map (·.cons c 2) := by
  obtain ⟨hc, hbreak⟩ := unescape?_letter h
  rw [doubleRun?, if_neg (by decide), if_pos (by decide)]
  simp only [hbreak, hc]
  rfl

/-! ### Codes -/

theorem doubleRun?_digits {ds : List Char} (hne : ds ≠ []) {code n : Nat} {c : Char}
    (hds : Plain.digits? 16 code ds = some n) (hc : charOfCode? n = some c) (rest : List Char) :
    doubleRun? ds.length code (ds ++ rest) = (doubleRun? 0 0 rest).map (·.cons c ds.length) := by
  induction ds generalizing code with
  | nil => exact absurd rfl hne
  | cons d ds ih =>
    rw [Plain.digits?] at hds
    cases hd : Plain.digit? 16 d with
    | none => rw [hd] at hds; cases hds
    | some e =>
      rw [hd] at hds
      have hcode : code * 16 + e = 16 * code + e := by omega
      simp only [hcode] at hds
      cases ds with
      | nil =>
        obtain rfl := Option.some.inj hds
        simp [doubleRun?, hd, hc]
      | cons d' ds =>
        have hread := ih (by simp) hds
        rw [List.length_cons] at hread
        rw [List.length_cons, List.length_cons, List.cons_append, doubleRun?, hd]
        simp only [hread, Option.map_map]
        rfl

/-- The parts of a code: its letter, and as many digits as the letter says. -/
theorem coded_eq (c : Char) : ∃ letter width,
    coded c = '\\' :: letter :: upperHex (width + 1) c.toNat ∧
    c.toNat < Nat.pow 16 (width + 1) ∧ codeWidth? letter = some (width + 1) ∧
    unescape? letter = none ∧ isBreak letter = false := by
  have hmax : c.toNat < 0x110000 := by
    rcases c.valid with h | ⟨_, h⟩
    · exact Nat.lt_trans h (by decide)
    · exact h
  unfold coded
  dsimp only
  split
  · next h => exact ⟨'x', 1, rfl, Nat.lt_of_le_of_lt h (by decide), rfl, rfl, rfl⟩
  · split
    · next h => exact ⟨'u', 3, rfl, Nat.lt_of_le_of_lt h (by decide), rfl, rfl, rfl⟩
    · exact ⟨'U', 7, rfl, Nat.lt_trans hmax (by decide), rfl, rfl, rfl⟩

theorem doubleRun?_coded (c : Char) (rest : List Char) :
    doubleRun? 0 0 (coded c ++ rest) = (doubleRun? 0 0 rest).map (·.cons c (coded c).length) := by
  obtain ⟨letter, width, hcoded, hlt, hwidth, hletter, hbreak⟩ := coded_eq c
  have hlength := Plain.length_upperHex (width + 1) c.toNat
  have hread := doubleRun?_digits (by rw [← List.length_pos_iff, hlength]; omega)
    (Plain.digits?_upperHex hlt) (charOfCode?_toNat c) rest
  rw [hlength] at hread
  rw [hcoded, List.cons_append, List.cons_append, doubleRun?, if_neg (by decide),
    if_pos (by decide)]
  simp only [hbreak, hletter, hwidth, hread]
  simp [Function.comp_def, Run.cons, hlength, Nat.add_assoc]

/-! ### Double quotes -/

theorem doubleRun?_cons {c : Char} (h : isSolid c = true) (hquote : c ≠ '"') (hslash : c ≠ '\\')
    (rest : List Char) :
    doubleRun? 0 0 (c :: rest) = (doubleRun? 0 0 rest).map (·.cons c 1) := by
  obtain ⟨hblank, hbreak⟩ := isSolid_iff.mp h
  rw [doubleRun?.eq_def]
  simp [hquote, hblank, hbreak, hslash]

theorem doubleRun?_stop {c : Char} (h : c = '"' ∨ isSolid c = false) (rest : List Char) :
    doubleRun? 0 0 (c :: rest) = some ⟨[], 0, c :: rest⟩ := by
  have hstop : (c == '"' || isBlank c || isBreak c) = true := by
    rcases h with rfl | h
    · rfl
    · rw [Bool.or_assoc, Bool.or_eq_true]
      exact .inr (by simpa [isSolid, Decidable.imp_iff_not_or] using h)
  rw [doubleRun?.eq_def]
  simp only [hstop, reduceIte]

theorem doubleChar_cases (c : Char) :
    (∃ letter, escapeLetter? c = some letter ∧ doubleChar c = ['\\', letter]) ∨
      escapeLetter? c = none ∧ doubleChar c = [c] ∨
      doubleChar c = coded c := by
  unfold doubleChar
  cases h : escapeLetter? c with
  | some letter => exact .inl ⟨letter, rfl, rfl⟩
  | none =>
    cases hprint : isPrintable c with
    | true => exact .inr (.inl ⟨rfl, rfl⟩)
    | false => exact .inr (.inr rfl)

theorem isSolid_of_escapeLetter? {c : Char} (h : escapeLetter? c = none) (hc : c ≠ ' ') :
    isSolid c = true := by
  obtain ⟨_, _, htab, hbreak⟩ := ordinary_of_escapeLetter? h
  simp [isSolid_iff, isBlank, hc, htab, hbreak]

/-- Between double quotes only spaces are gaps. -/
def double : Quoting where
  quote := '"'
  run? := doubleRun? 0 0
  write := doubleChar
  inRun c := c != ' '
  isSolid_quote := rfl
  inRun_space := rfl
  write_gap {c} h := by
    obtain rfl : c = ' ' := by simpa using h
    rfl
  atGap_write {c} rest h := by
    rcases doubleChar_cases c with ⟨letter, _, heq⟩ | ⟨hnone, heq⟩ | heq
    · rw [heq]; rfl
    · have hsolid := isSolid_of_escapeLetter? hnone (by simpa using h)
      rw [heq, List.singleton_append, atGap_cons, hsolid]; rfl
    · obtain ⟨letter, width, hcoded, _⟩ := coded_eq c
      rw [heq, hcoded]; rfl
  run?_write {c} rest h := by
    rcases doubleChar_cases c with ⟨letter, hletter, heq⟩ | ⟨hnone, heq⟩ | heq
    · rw [heq]; exact doubleRun?_letter hletter rest
    · have hsolid := isSolid_of_escapeLetter? hnone (by simpa using h)
      obtain ⟨hquote, hslash, _, _⟩ := ordinary_of_escapeLetter? hnone
      rw [heq]; exact doubleRun?_cons hsolid hquote hslash rest
    · rw [heq]; exact doubleRun?_coded c rest
  run?_gap rest h := doubleRun?_stop (.inr h) rest
  run?_quote _ := doubleRun?_stop (.inl rfl) _

theorem body_double (column : Nat) (cs : List Char) :
    double.body column cs = cs.flatMap doubleChar := by
  induction cs with
  | nil => rfl
  | cons c cs ih =>
    have hbreaks : double.breaks c = false := by
      by_cases hc : c = ' '
      · rw [hc]; rfl
      · simp [Quoting.breaks, double, hc]
    rw [Quoting.body, hbreaks, ih]
    rfl

/-- Text between double quotes is read as what was written. -/
theorem doubleQuoted?_written {cs rest : List Char} (hrest : atGap rest = true) (fuel : Nat)
    (cur : Cursor) (hfuel : (doubleQuoted cs).length ≤ fuel)
    (hcur : cur.rest = doubleQuoted cs ++ rest) :
    ∃ last, doubleQuoted? fuel cur = some (cs, last) ∧ last.rest = rest := by
  have hruns : Runs double.inRun cs := .of_blanks fun c _ h => by simpa [double] using h
  simp only [doubleQuoted, List.length_append, List.length_cons] at hfuel
  obtain ⟨fuel, rfl⟩ : ∃ n, fuel = n + 1 := ⟨fuel - 1, by omega⟩
  have hnext : (cur.advance 1).rest = double.body 1 cs ++ '"' :: rest := by
    simp [Cursor.advance, hcur, doubleQuoted, body_double]
  refine double.quoted?_runs hruns hrest ?_ (by decide) fuel (cur.advance 1) ?_
    (by simp [Cursor.advance]) hnext
  · intro c _ h heq
    rw [heq] at h
    cases h
  · rw [body_double]
    omega

end Tablewright.Yaml.Scalar
