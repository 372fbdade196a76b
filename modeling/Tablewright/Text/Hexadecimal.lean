/-! Hexadecimal numerals of a fixed width. -/

namespace Tablewright.Text

/-- The last `width` digits of a number, in lower case. -/
def hex : Nat → Nat → List Char
  | 0, _ => []
  | width + 1, n => hex width (n / 16) ++ [Nat.digitChar (n % 16)]

/-- The last `width` digits of a number, in upper case. -/
def upperHex (width n : Nat) : List Char := (hex width n).map Char.toUpper

theorem length_hex (width n : Nat) : (hex width n).length = width := by
  induction width generalizing n with
  | zero => rfl
  | succ width ih => simp [hex, ih]

end Tablewright.Text
