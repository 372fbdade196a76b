/-! The maximal runs of a list: neighbours that both have a property stay together, and every other
element is alone. -/

namespace Tablewright.Text

def runs (p : α → Bool) : List α → List (List α)
  | [] => []
  | a :: rest =>
    match runs p rest with
    | (b :: run) :: more => if p a && p b then (a :: b :: run) :: more else [a] :: (b :: run) :: more
    | more => [a] :: more

theorem flatten_runs (p : α → Bool) (xs : List α) : (runs p xs).flatten = xs := by
  induction xs with
  | nil => rfl
  | cons a rest ih =>
    unfold runs
    split
    · next b run more h =>
      rw [h] at ih
      split <;> simp_all
    · simp [ih]

end Tablewright.Text
