import Mathlib.Data.List.TakeWhile
import Tablewright.Schema.ColumnType

/-! The search for the modifiers of a type: it runs from the first parenthesis to the one that
closes it. Text between single quotes does not count, and the number of open parentheses never falls
below zero. -/

namespace Tablewright.ColumnType

open Text

/-! ## Text that the search passes -/

section Passes

variable {cs ds : List Char}

/-- Neither the end of the list nor an open quote is found in the text. -/
def Passes (cs : List Char) : Prop :=
  ∀ rest, untilClosed 1 false (cs ++ rest) = (untilClosed 1 false rest).map (cs ++ ·)

theorem Passes.append (hcs : Passes cs) (hds : Passes ds) : Passes (cs ++ ds) := by
  intro rest
  rw [List.append_assoc, hcs, hds, Option.map_map]
  congr 1
  funext list
  exact (List.append_assoc cs ds list).symm

theorem passes_of_forall_ne (h : ∀ c ∈ cs, c ≠ '\x27' ∧ c ≠ '(' ∧ c ≠ ')') : Passes cs := by
  intro rest
  induction cs with
  | nil => exact (congrFun Option.map_id _).symm
  | cons c tail ih =>
    obtain ⟨⟨hquote, hopen, hclose⟩, htail⟩ := List.forall_mem_cons.mp h
    have hstep : untilClosed 1 false (c :: (tail ++ rest)) =
        (untilClosed 1 false (tail ++ rest)).map (c :: ·) := by
      simp [untilClosed, hquote, hopen, hclose]
    rw [List.cons_append, hstep, ih htail, Option.map_map]
    rfl

/-- The parenthesis that opens the list, and the one that closes it. -/
theorem modifiers?_of_passes {before list : List Char} (hbefore : '(' ∉ before)
    (hlist : Passes list) (after : List Char) :
    modifiers? (before ++ '(' :: (list ++ ')' :: after)) = some list := by
  have hdrop : (before ++ '(' :: (list ++ ')' :: after)).dropWhile (· != '(') =
      '(' :: (list ++ ')' :: after) := by
    rw [List.dropWhile_append_of_pos]
    · exact List.dropWhile_cons_of_neg (by simp)
    · intro c hc
      refine bne_iff_ne.mpr ?_
      rintro rfl
      exact hbefore hc
  have hclosed : untilClosed 1 false (')' :: after) = some [] := by simp [untilClosed]
  unfold modifiers?
  rw [hdrop]
  show untilClosed 1 false (list ++ ')' :: after) = some list
  rw [hlist, hclosed, Option.map_some, List.append_nil]

theorem modifiers?_of_notMem (h : '(' ∉ cs) : modifiers? cs = none := by
  have hdrop : cs.dropWhile (· != '(') = [] := by
    refine List.dropWhile_eq_nil_iff.mpr ?_
    intro c hc
    refine bne_iff_ne.mpr ?_
    rintro rfl
    exact h hc
  unfold modifiers?
  rw [hdrop]

end Passes

/-! ## Open parentheses -/

/-- How many parentheses are open, fewer than none if more are closed than opened, and whether a
quote is. -/
structure Nesting where
  depth : Int
  inQuotes : Bool

namespace Nesting

def next (n : Nesting) (c : Char) : Nesting :=
  if c = '\x27' then ⟨n.depth, !n.inQuotes⟩
  else if n.inQuotes then n
  else if c = '(' then ⟨n.depth + 1, false⟩
  else if c = ')' then ⟨n.depth - 1, false⟩
  else n

/-- Before anything is read. -/
def start : Nesting := ⟨0, false⟩

end Nesting

/-- How many parentheses are open behind a text. -/
def depthAfter (cs : List Char) : Int := (cs.foldl Nesting.next .start).depth

/-- The part of a text in which the modifiers are searched: from the first parenthesis through the
one that closes it, or all that follows if none does. -/
def searched (cs : List Char) : List Char :=
  match modifiers? cs with
  | some list => '(' :: (list ++ [')'])
  | none => cs.dropWhile (· != '(')

/-- One character of the search. It ends where no parenthesis is open any more. -/
theorem untilClosed_cons {depth : Nat} (hdepth : 0 < depth) (inQuotes : Bool) (c : Char)
    (rest : List Char) :
    (∃ deeper : Nat, 0 < deeper ∧ (Nesting.next ⟨depth, inQuotes⟩ c).depth = deeper ∧
      untilClosed depth inQuotes (c :: rest) =
        (untilClosed deeper (Nesting.next ⟨depth, inQuotes⟩ c).inQuotes rest).map (c :: ·)) ∨
    c = ')' ∧ (Nesting.next ⟨depth, inQuotes⟩ c).depth = 0 ∧
      untilClosed depth inQuotes (c :: rest) = some [] := by
  by_cases hquote : c = '\x27'
  · exact .inl ⟨depth, hdepth, by simp [Nesting.next, hquote],
      by simp [untilClosed, Nesting.next, hquote]⟩
  · cases inQuotes with
    | true => exact .inl ⟨depth, hdepth, by simp [Nesting.next, hquote],
        by simp [untilClosed, Nesting.next, hquote]⟩
    | false =>
      by_cases hopen : c = '('
      · exact .inl ⟨depth + 1, Nat.succ_pos depth, by simp [Nesting.next, hopen],
          by simp [untilClosed, Nesting.next, hopen]⟩
      · by_cases hclose : c = ')'
        · by_cases hlast : depth = 1
          · exact .inr ⟨hclose, by simp [Nesting.next, hclose, hlast],
              by simp [untilClosed, hclose, hlast]⟩
          · have hdeep : ¬ depth ≤ 1 := by omega
            refine .inl ⟨depth - 1, by omega, ?_,
              by simp [untilClosed, Nesting.next, hclose, hdeep]⟩
            simp only [Nesting.next, hclose]
            show (depth : Int) - 1 = _
            omega
        · exact .inl ⟨depth, hdepth, by simp [Nesting.next, hquote, hopen, hclose],
            by simp [untilClosed, Nesting.next, hquote, hopen, hclose]⟩

/-- At no place of the search are more parentheses closed than opened. -/
theorem depth_nonneg_of_untilClosed {depth : Nat} (hdepth : 0 < depth) (inQuotes : Bool)
    (cs : List Char) {p : List Char}
    (hp : p <+: (untilClosed depth inQuotes cs).elim cs (· ++ [')'])) :
    0 ≤ (p.foldl Nesting.next ⟨depth, inQuotes⟩).depth := by
  induction cs generalizing depth inQuotes p with
  | nil =>
    obtain rfl := List.prefix_nil.mp hp
    exact Int.natCast_nonneg depth
  | cons c rest ih =>
    cases p with
    | nil => exact Int.natCast_nonneg depth
    | cons c' p =>
      rcases untilClosed_cons hdepth inQuotes c rest with
        ⟨deeper, hdeeper, hnext, hrest⟩ | ⟨rfl, hnext, hend⟩
      · rw [hrest] at hp
        have hnesting : Nesting.next ⟨depth, inQuotes⟩ c =
            ⟨deeper, (Nesting.next ⟨depth, inQuotes⟩ c).inQuotes⟩ := by rw [← hnext]
        have hboth : c' = c ∧ p <+: (untilClosed deeper
            (Nesting.next ⟨depth, inQuotes⟩ c).inQuotes rest).elim rest (· ++ [')']) := by
          revert hp
          cases untilClosed deeper (Nesting.next ⟨depth, inQuotes⟩ c).inQuotes rest <;>
            exact List.cons_prefix_cons.mp
        obtain ⟨rfl, hp⟩ := hboth
        rw [List.foldl_cons, hnesting]
        exact ih hdeeper _ hp
      · rw [hend] at hp
        obtain ⟨rfl, hnil⟩ := List.cons_prefix_cons.mp (show c' :: p <+: [')'] from hp)
        obtain rfl := List.prefix_nil.mp hnil
        exact Int.le_of_eq hnext.symm

/-- Wherever the modifiers are searched, the number of open parentheses is not negative. -/
theorem depthAfter_nonneg (text : List Char) {p : List Char} (h : p <+: searched text) :
    0 ≤ depthAfter p := by
  unfold searched modifiers? at h
  cases hdrop : text.dropWhile (· != '(') with
  | nil =>
    rw [hdrop] at h
    obtain rfl := List.prefix_nil.mp h
    exact Int.le_refl 0
  | cons first rest =>
    have hfirst : first = '(' := by
      have hhead := List.head?_dropWhile_not (· != '(') text
      rw [hdrop] at hhead
      simpa using hhead
    subst hfirst
    have hread : p <+: '(' :: (untilClosed 1 false rest).elim rest (· ++ [')']) := by
      simp only [hdrop] at h
      revert h
      cases untilClosed 1 false rest <;> exact id
    cases p with
    | nil => exact Int.le_refl 0
    | cons c p =>
      obtain ⟨rfl, hp⟩ := List.cons_prefix_cons.mp hread
      exact depth_nonneg_of_untilClosed Nat.one_pos false rest hp

end Tablewright.ColumnType
