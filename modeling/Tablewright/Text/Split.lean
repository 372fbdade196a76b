/-! Cutting and joining text. -/

namespace Tablewright.Text

/-- The pieces between the characters that satisfy `isCut`. There is one more piece than cuts. -/
def splitAt (isCut : Char → Bool) : List Char → List (List Char)
  | [] => [[]]
  | c :: rest =>
    if isCut c then [] :: splitAt isCut rest
    else match splitAt isCut rest with
      | [] => [[c]]
      | piece :: pieces => (c :: piece) :: pieces

theorem splitAt_ne_nil (isCut : Char → Bool) (cs : List Char) : splitAt isCut cs ≠ [] := by
  cases cs with
  | nil => simp [splitAt]
  | cons c rest =>
    unfold splitAt
    split
    · simp
    · split <;> simp

/-- The lines of a text. A text that ends with a line feed ends in an empty line. -/
def lines (s : String) : List String := (splitAt (· == '\n') s.toList).map String.ofList

/-- The text of lines that each end with a line feed. -/
def unlines (lines : List String) : String := String.join (lines.map (· ++ "\n"))

/-- The texts in order with `sep` between neighbours. -/
def join (sep : String) : List String → String
  | [] => ""
  | [s] => s
  | s :: rest => s ++ sep ++ join sep rest

/-- What follows `start`, if the text begins with it. -/
def dropStart? : List Char → List Char → Option (List Char)
  | [], cs => some cs
  | p :: ps, c :: cs => if p = c then dropStart? ps cs else none
  | _ :: _, [] => none

end Tablewright.Text
