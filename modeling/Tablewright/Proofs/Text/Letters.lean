import Tablewright.Text.Blank

/-! The letters and digits of ASCII, apart from each other and from blanks, and letters in lower
case. -/

namespace Tablewright.Text

variable {c : Char}

/-- What holds of the first characters, one by one, holds of each of them. -/
theorem of_toNat_lt {p : Char → Prop} (hp : ∀ n < 128, p (.ofNat n)) (h : c.toNat < 128) : p c := by
  have hc := hp c.toNat h
  rwa [Char.ofNat_toNat] at hc

theorem toNat_lt_of_isAlpha (h : c.isAlpha = true) : c.toNat < 128 := by
  rcases Bool.or_eq_true_iff.mp h with hupper | hlower
  · have hle : c.val ≤ 'Z'.val := (of_decide_eq_true hupper).2
    exact Nat.lt_of_le_of_lt (UInt32.le_iff_toNat_le.mp hle) (by decide)
  · have hle : c.val ≤ 'z'.val := of_decide_eq_true (Bool.and_eq_true_iff.mp hlower).2
    exact Nat.lt_of_le_of_lt (UInt32.le_iff_toNat_le.mp hle) (by decide)

/-- What holds of the letters among the first characters holds of all of them. -/
theorem of_isAlpha {p : Char → Bool}
    (hp : ∀ n < 128, (Char.ofNat n).isAlpha = true → p (.ofNat n) = true)
    (h : c.isAlpha = true) : p c = true :=
  of_toNat_lt (p := fun c => c.isAlpha = true → p c = true) hp (toNat_lt_of_isAlpha h) h

theorem isBlank_of_isAlpha (h : c.isAlpha = true) : isBlank c = false := by
  have hc : (!isBlank c) = true := of_isAlpha (p := fun c => !isBlank c) (by decide +kernel) h
  simpa using hc

theorem not_isAlpha_of_isBlank (h : isBlank c = true) : c.isAlpha = false := by
  rw [← Bool.not_eq_true]
  intro halpha
  rw [isBlank_of_isAlpha halpha] at h
  cases h

theorem not_isAlpha_of_isDigit (h : c.isDigit = true) : c.isAlpha = false := by
  rw [← Bool.not_eq_true]
  intro halpha
  have hc : (!c.isDigit) = true := of_isAlpha (p := fun c => !c.isDigit) (by decide +kernel) halpha
  simp [h] at hc

theorem isAscii_of_isDigit (h : c.isDigit = true) : isAscii c = true := by
  have hle : c.val ≤ '9'.val := of_decide_eq_true (Bool.and_eq_true_iff.mp h).2
  exact decide_eq_true (Nat.lt_of_le_of_lt (UInt32.le_iff_toNat_le.mp hle) (by decide))

theorem isBlank_of_isDigit (h : c.isDigit = true) : isBlank c = false :=
  of_toNat_lt (p := fun c => c.isDigit = true → isBlank c = false) (by decide +kernel)
    (of_decide_eq_true (isAscii_of_isDigit h)) h

/-- Only a letter is a letter in lower case. -/
theorem isAlpha_of_toLower (h : c.toLower.isAlpha = true) : c.isAlpha = true := by
  unfold Char.toLower at h
  split at h
  · rename_i hupper
    exact Bool.or_eq_true_iff.mpr (.inl (decide_eq_true hupper))
  · exact h

end Tablewright.Text
