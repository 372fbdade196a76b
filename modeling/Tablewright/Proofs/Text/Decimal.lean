import Tablewright.Proofs.Text.Letters
import Tablewright.Text.Decimal

/-! Which texts are read as numbers: non-empty runs of digits, below the bound and, where a sign may
stand, behind a plus. -/

namespace Tablewright.Text

/-- A non-empty run of digits. -/
structure IsNumeral (cs : List Char) : Prop where
  nonempty : cs ≠ []
  digits : ∀ c ∈ cs, c.isDigit = true

instance (cs : List Char) : Decidable (IsNumeral cs) :=
  decidable_of_iff (cs ≠ [] ∧ cs.all Char.isDigit = true)
    ⟨fun h => ⟨h.1, List.all_eq_true.mp h.2⟩, fun h => ⟨h.nonempty, List.all_eq_true.mpr h.digits⟩⟩

/-- The number that a run of digits stands for. -/
def decimal (digits : List Char) : Nat := Nat.ofDigitChars 10 digits 0

/-- What a text stands for as a number: the numeral that it is, behind a plus or alone. -/
inductive StandsFor : List Char → Nat → Prop
  | numeral {digits : List Char} (h : IsNumeral digits) : StandsFor digits (decimal digits)
  | signed {digits : List Char} (h : IsNumeral digits) : StandsFor ('+' :: digits) (decimal digits)

variable {cs : List Char}

theorem StandsFor.plus_or_digit {n : Nat} (h : StandsFor cs n) :
    ∀ c ∈ cs, c = '+' ∨ c.isDigit = true := by
  intro c hc
  cases h with
  | numeral h => exact .inr (h.digits c hc)
  | signed h => exact (List.mem_cons.mp hc).imp_right (h.digits c)

theorem StandsFor.ne_nil {n : Nat} (h : StandsFor cs n) : cs ≠ [] := by
  cases h with
  | numeral h => exact h.nonempty
  | signed h => exact List.cons_ne_nil _ _

theorem numeral?_eq_some {n : Nat} : numeral? cs = some n ↔ IsNumeral cs ∧ n = decimal cs := by
  unfold numeral?
  split
  · rename_i h
    simp only [reduceCtorEq, false_iff]
    rintro ⟨⟨hne, hdigits⟩, _⟩
    have hall : cs.all Char.isDigit = true := List.all_eq_true.mpr hdigits
    simp [hne, hall] at h
  · rename_i h
    simp only [Bool.or_eq_true, not_or, List.isEmpty_iff, Bool.not_eq_true', Bool.not_eq_false,
      List.all_eq_true] at h
    rw [Option.some.injEq]
    constructor
    · rintro rfl
      exact ⟨⟨h.1, h.2⟩, rfl⟩
    · rintro ⟨_, rfl⟩
      rfl

/-- A number is read back from its digits. -/
theorem numeral?_toDigits (n : Nat) : numeral? (Nat.toDigits 10 n) = some n := by
  have hnumeral : IsNumeral (Nat.toDigits 10 n) :=
    ⟨Nat.toDigits_ne_nil, fun c hc => Nat.isDigit_of_mem_toDigits (by decide) (by decide) hc⟩
  exact numeral?_eq_some.mpr ⟨hnumeral, Nat.ofDigitChars_ten_toDigits.symm⟩

theorem word64?_eq_some {w : UInt64} :
    word64? cs = some w ↔ IsNumeral cs ∧ decimal cs < UInt64.size ∧ w = .ofNat (decimal cs) := by
  unfold word64?
  cases hn : numeral? cs with
  | none =>
    simp only [reduceCtorEq, false_iff]
    rintro ⟨hnumeral, _⟩
    rw [numeral?_eq_some.mpr ⟨hnumeral, rfl⟩] at hn
    cases hn
  | some n =>
    obtain ⟨hnumeral, rfl⟩ := numeral?_eq_some.mp hn
    show (if decimal cs < UInt64.size then _ else _) = _ ↔ _
    split
    · rename_i hlt
      rw [Option.some.injEq]
      constructor
      · rintro rfl
        exact ⟨hnumeral, hlt, rfl⟩
      · rintro ⟨_, _, rfl⟩
        rfl
    · rename_i hlt
      constructor
      · nofun
      · rintro ⟨_, hbelow, _⟩
        exact absurd hbelow hlt

theorem not_isNumeral_plus (rest : List Char) : ¬ IsNumeral ('+' :: rest) := by
  intro h
  have hplus := h.digits '+' List.mem_cons_self
  revert hplus
  decide

/-- A numeral stands for one number only. -/
theorem standsFor_iff_of_isNumeral (h : IsNumeral cs) {n : Nat} :
    StandsFor cs n ↔ n = decimal cs := by
  constructor
  · intro hstands
    cases hstands with
    | numeral _ => rfl
    | signed _ => exact absurd h (not_isNumeral_plus _)
  · rintro rfl
    exact .numeral h

theorem signedWord64?_eq_some {w : UInt64} :
    signedWord64? cs = some w ↔ ∃ n < UInt64.size, StandsFor cs n ∧ w = .ofNat n := by
  unfold signedWord64?
  split
  · rename_i rest
    rw [word64?_eq_some]
    constructor
    · rintro ⟨hnumeral, hlt, rfl⟩
      exact ⟨_, hlt, .signed hnumeral, rfl⟩
    · rintro ⟨n, hlt, hstands, rfl⟩
      cases hstands with
      | numeral h => exact absurd h (not_isNumeral_plus rest)
      | signed h => exact ⟨h, hlt, rfl⟩
  · rename_i hplus
    rw [word64?_eq_some]
    constructor
    · rintro ⟨hnumeral, hlt, rfl⟩
      exact ⟨_, hlt, .numeral hnumeral, rfl⟩
    · rintro ⟨n, hlt, hstands, rfl⟩
      cases hstands with
      | numeral h => exact ⟨h, hlt, rfl⟩
      | signed h => exact absurd rfl (hplus _)

end Tablewright.Text
