import Tablewright.Text.Hexadecimal
import Tablewright.Yaml.Scalar

/-! Written numbers are read back: decimal numerals, and hexadecimal ones of a fixed width. -/

namespace Tablewright.Yaml

open Text

namespace Plain

theorem digits?_append {base acc : Nat} {cs : List Char} {c : Char} {n d : Nat}
    (h : digits? base acc cs = some n) (hc : digit? base c = some d) :
    digits? base acc (cs ++ [c]) = some (n * base + d) := by
  induction cs generalizing acc with
  | nil =>
    obtain rfl := Option.some.inj h
    rw [List.nil_append, digits?, hc]
    rfl
  | cons b cs ih =>
    rw [digits?] at h
    rw [List.cons_append, digits?]
    cases hb : digit? base b with
    | none => rw [hb] at h; cases h
    | some e =>
      rw [hb] at h
      exact ih h

/-! ### Decimal numerals -/

theorem digit?_ten : ∀ d < 10, digit? 10 d.digitChar = some d := by decide

theorem digits?_toDigits (n : Nat) : digits? 10 0 (Nat.toDigits 10 n) = some n := by
  induction n using Nat.strongRecOn with
  | ind n ih =>
    by_cases hn : n < 10
    · rw [Nat.toDigits_of_lt_base hn, digits?, digit?_ten n hn]
      simp [digits?]
    · rw [Nat.toDigits_of_base_le (by decide) (by omega),
        digits?_append (ih (n / 10) (by omega)) (digit?_ten (n % 10) (by omega)),
        Nat.div_add_mod']

theorem head?_toDigits {n : Nat} (h : 0 < n) : (Nat.toDigits 10 n).head? ≠ some '0' := by
  induction n using Nat.strongRecOn with
  | ind n ih =>
    by_cases hn : n < 10
    · have hall : ∀ d < 10, 0 < d → d.digitChar ≠ '0' := by decide
      rw [Nat.toDigits_of_lt_base hn, List.head?_cons]
      exact fun heq => hall n hn h (Option.some.inj heq)
    · have hhead := ih (n / 10) (by omega) (by omega)
      rw [Nat.toDigits_of_base_le (by decide) (by omega)]
      cases hdigits : Nat.toDigits 10 (n / 10) with
      | nil => exact absurd hdigits Nat.toDigits_ne_nil
      | cons d ds =>
        rw [hdigits] at hhead
        exact hhead

theorem magnitude?_of_head {cs : List Char} (hne : cs ≠ []) (h : cs.head? ≠ some '0') :
    magnitude? cs = digits? 10 0 cs := by
  cases cs with
  | nil => exact absurd rfl hne
  | cons c cs =>
    have hc : c ≠ '0' := fun heq => h (by rw [heq]; rfl)
    have hzero : hasLeadingZero (c :: cs) = false := by
      unfold hasLeadingZero
      split
      · next heq => exact absurd (List.cons.inj heq).1 hc
      · rfl
    unfold magnitude?
    split
    · next heq => cases heq
    · next heq => exact absurd (List.cons.inj heq).1 hc
    · next heq => exact absurd (List.cons.inj heq).1 hc
    · next heq => exact absurd (List.cons.inj heq).1 hc
    · rw [hzero]; rfl

/-- A number is read back from its numeral. -/
theorem natural?_toString (n : Nat) : natural? (toString n).toList = some n := by
  rw [Nat.toString_eq_repr, Nat.toList_repr]
  cases n with
  | zero => decide
  | succ n =>
    have hplus : ∀ rest, Nat.toDigits 10 (n + 1) ≠ '+' :: rest := by
      intro rest heq
      have hdigit : '+'.isDigit = true :=
        Nat.isDigit_of_mem_toDigits (by decide) (by decide) (heq ▸ List.mem_cons_self)
      cases hdigit
    unfold natural?
    split
    · next heq => exact absurd heq (hplus _)
    · rw [magnitude?_of_head Nat.toDigits_ne_nil (head?_toDigits (by omega)), digits?_toDigits]

theorem exists_toDigits_eq_cons (n : Nat) :
    ∃ c cs, Nat.toDigits 10 n = c :: cs ∧ c.isDigit = true := by
  obtain ⟨c, cs, hcs⟩ := List.exists_cons_of_ne_nil (Nat.toDigits_ne_nil (b := 10) (n := n))
  exact ⟨c, cs, hcs,
    Nat.isDigit_of_mem_toDigits (by decide) (by decide) (hcs ▸ List.mem_cons_self)⟩

/-- None but zero begins with a zero. -/
theorem not_leadingZero_toDigits (n : Nat) :
    ¬((Nat.toDigits 10 n).head? = some '0' ∧ Nat.toDigits 10 n ≠ ['0']) := by
  rintro ⟨hhead, hne⟩
  rcases Nat.eq_zero_or_pos n with rfl | hpos
  · exact hne rfl
  · exact head?_toDigits hpos hhead

/-! ### Hexadecimal numerals -/

/-- Digits are read back in any spelling in which each of them is. -/
theorem digits?_map_hex {f : Char → Char} (hf : ∀ d < 16, digit? 16 (f d.digitChar) = some d)
    {width n : Nat} (h : n < Nat.pow 16 width) : digits? 16 0 ((hex width n).map f) = some n := by
  induction width generalizing n with
  | zero =>
    obtain rfl : n = 0 := Nat.lt_one_iff.mp h
    rfl
  | succ width ih =>
    have hdiv : n / 16 < Nat.pow 16 width := Nat.div_lt_of_lt_mul (Nat.mul_comm 16 _ ▸ h)
    have hsplit : (hex (width + 1) n).map f =
        (hex width (n / 16)).map f ++ [f (n % 16).digitChar] := by simp [hex]
    rw [hsplit, digits?_append (ih hdiv) (hf (n % 16) (Nat.mod_lt n (by decide))),
      Nat.div_add_mod']

theorem digits?_hex {width n : Nat} (h : n < Nat.pow 16 width) :
    digits? 16 0 (hex width n) = some n := by
  have hread := digits?_map_hex (f := id) (by decide) h
  rwa [List.map_id] at hread

theorem digits?_upperHex {width n : Nat} (h : n < Nat.pow 16 width) :
    digits? 16 0 (upperHex width n) = some n :=
  digits?_map_hex (by decide) h

theorem length_upperHex (width n : Nat) : (upperHex width n).length = width := by
  rw [upperHex, List.length_map, length_hex]

end Plain

/-- A character is read back from its code. -/
theorem Scalar.charOfCode?_toNat (c : Char) : charOfCode? c.toNat = some c := by
  have hvalid : c.toNat.isValidChar := c.valid
  rw [charOfCode?, dif_pos hvalid]
  rfl

end Tablewright.Yaml
