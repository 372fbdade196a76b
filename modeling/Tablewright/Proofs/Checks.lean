import Mathlib.Data.List.Forall2

/-! Checks in sequence. A chain of checks succeeds if every one of them does, and it fails the way
its first failing check fails. `Reaches` says that an element has been reached: all before it was
found to be in order. -/

namespace Tablewright.Checks

variable {ε α β : Type}

theorem bind_eq_ok {x : Except ε α} {f : α → Except ε β} {b : β} :
    (x >>= f) = .ok b ↔ ∃ a, x = .ok a ∧ f a = .ok b := by
  cases x with
  | error e => simp [bind, Except.bind]
  | ok a => simp [bind, Except.bind]

theorem bind_eq_error {x : Except ε α} {f : α → Except ε β} {e : ε} :
    (x >>= f) = .error e ↔ x = .error e ∨ ∃ a, x = .ok a ∧ f a = .error e := by
  cases x with
  | error e' => simp [bind, Except.bind]
  | ok a => simp [bind, Except.bind]

theorem eq_ok_of_toOption {x : Except ε α} {a : α} (h : x.toOption = some a) : x = .ok a := by
  cases x with
  | error e => cases h
  | ok b => cases h; rfl

def failure? : Except ε α → Option ε
  | .error e => some e
  | .ok _ => none

theorem eq_error_of_failure {x : Except ε α} {e : ε} (h : failure? x = some e) : x = .error e := by
  cases x with
  | error e' => cases h; rfl
  | ok a => cases h

/-- The success of a check carries nothing, so it is just passed. -/
theorem check_bind_eq_ok {check : Except ε Unit} {next : Except ε β} {b : β} :
    (check >>= fun _ => next) = .ok b ↔ check = .ok () ∧ next = .ok b := by
  cases check with
  | error e => simp [bind, Except.bind]
  | ok u => simp [bind, Except.bind]

theorem check_bind_eq_error {check : Except ε Unit} {next : Except ε β} {e : ε} :
    (check >>= fun _ => next) = .error e ↔
      check = .error e ∨ check = .ok () ∧ next = .error e := by
  cases check with
  | error e' => simp [bind, Except.bind]
  | ok u => simp [bind, Except.bind]

theorem map_eq_ok {x : Except ε α} {f : α → β} {b : β} :
    x.map f = .ok b ↔ ∃ a, x = .ok a ∧ f a = b := by
  cases x with
  | error e => simp [Except.map]
  | ok a => simp [Except.map]

theorem map_eq_error {x : Except ε α} {f : α → β} {e : ε} : x.map f = .error e ↔ x = .error e := by
  cases x with
  | error e' => simp [Except.map]
  | ok a => simp [Except.map]

theorem mapError_eq_ok {ε' : Type} {x : Except ε α} {f : ε → ε'} {a : α} :
    x.mapError f = .ok a ↔ x = .ok a := by
  cases x with
  | error e =>
    show (.error (f e) : Except ε' α) = .ok a ↔ _
    simp
  | ok b =>
    show (.ok b : Except ε' α) = .ok a ↔ _
    simp

theorem mapError_eq_error {ε' : Type} {x : Except ε α} {f : ε → ε'} {e' : ε'} :
    x.mapError f = .error e' ↔ ∃ e, x = .error e ∧ f e = e' := by
  cases x with
  | error e =>
    show (.error (f e) : Except ε' α) = .error e' ↔ _
    simp
  | ok b =>
    show (.ok b : Except ε' α) = .error e' ↔ _
    simp

/-! ## Results of the elements of a list -/

theorem mapM_eq_ok {f : α → Except ε β} {xs : List α} {ys : List β} :
    xs.mapM f = .ok ys ↔ List.Forall₂ (fun x y => f x = .ok y) xs ys := by
  induction xs generalizing ys with
  | nil => simp [pure, Except.pure, eq_comm]
  | cons x xs ih =>
    rw [List.mapM_cons, List.forall₂_cons_left_iff, bind_eq_ok]
    simp only [bind_eq_ok, ih, pure, Except.pure, Except.ok.injEq]
    constructor
    · rintro ⟨y, hy, ys', hys, rfl⟩
      exact ⟨y, ys', hy, hys, rfl⟩
    · rintro ⟨y, ys', hy, hys, rfl⟩
      exact ⟨y, hy, ys', hys, rfl⟩

theorem mapM_map_eq_ok {γ : Type} {f : α → Except ε β} {g : β → γ} {xs : List α} {ys : List β}
    (h : List.Forall₂ (fun x y => f x = .ok y) xs ys) :
    xs.mapM (fun x => (f x).map g) = .ok (ys.map g) := by
  rw [mapM_eq_ok, List.forall₂_map_right_iff]
  exact h.imp fun x y hy => map_eq_ok.mpr ⟨y, hy, rfl⟩

theorem mapM_eq_some {f : α → Option β} {g : α → β} {xs : List α} (h : ∀ x ∈ xs, f x = some (g x)) :
    xs.mapM f = some (xs.map g) := by
  induction xs with
  | nil => rfl
  | cons x xs ih =>
    obtain ⟨hx, hxs⟩ := List.forall_mem_cons.mp h
    rw [List.mapM_cons, hx, ih hxs]
    rfl

theorem exists_forall₂ {R : α → β → Prop} {xs : List α} (h : ∀ x ∈ xs, ∃ y, R x y) :
    ∃ ys, List.Forall₂ R xs ys := by
  induction xs with
  | nil => exact ⟨[], .nil⟩
  | cons x xs ih =>
    obtain ⟨⟨y, hy⟩, hxs⟩ := List.forall_mem_cons.mp h
    obtain ⟨ys, hys⟩ := ih hxs
    exact ⟨y :: ys, .cons hy hys⟩

theorem exists_of_forall₂ {R : α → β → Prop} {xs : List α} {ys : List β}
    (h : List.Forall₂ R xs ys) : ∀ y ∈ ys, ∃ x ∈ xs, R x y := by
  induction h with
  | nil => simp
  | @cons x y xs ys hxy _ ih =>
    intro z hz
    rcases List.mem_cons.mp hz with rfl | hz
    · exact ⟨x, List.mem_cons_self, hxy⟩
    · obtain ⟨w, hw, hwz⟩ := ih z hz
      exact ⟨w, List.mem_cons_of_mem x hw, hwz⟩

/-! ## The first failure -/

/-- The element stands in the list, and all that stands before it satisfies `p`. -/
def Reaches (p : α → Prop) (xs : List α) (x : α) : Prop :=
  ∃ before after, xs = before ++ x :: after ∧ ∀ y ∈ before, p y

theorem not_reaches_nil {p : α → Prop} {x : α} : ¬ Reaches p [] x := by
  intro h
  obtain ⟨before, after, h, _⟩ := h
  cases before <;> cases h

theorem reaches_cons {p : α → Prop} {y x : α} {ys : List α} :
    Reaches p (y :: ys) x ↔ x = y ∨ p y ∧ Reaches p ys x := by
  constructor
  · intro h
    obtain ⟨before, after, h, hb⟩ := h
    cases before with
    | nil => cases h; exact .inl rfl
    | cons z before =>
      cases h
      refine .inr ⟨hb y (by simp), before, after, rfl, ?_⟩
      intro z hz
      exact hb z (List.mem_cons_of_mem y hz)
  · intro h
    rcases h with rfl | ⟨hy, before, after, rfl, hb⟩
    · exact ⟨[], ys, rfl, by simp⟩
    · refine ⟨y :: before, after, rfl, ?_⟩
      intro z hz
      rcases List.mem_cons.mp hz with rfl | hz
      · exact hy
      · exact hb z hz

theorem forM_eq_ok {check : α → Except ε Unit} {xs : List α} :
    xs.forM check = .ok () ↔ ∀ x ∈ xs, check x = .ok () := by
  induction xs with
  | nil => simp [pure, Except.pure]
  | cons x xs ih =>
    rw [List.forM_eq_forM] at ih ⊢
    rw [List.forM_cons, check_bind_eq_ok, List.forall_mem_cons, ih]

/-- The failure of a run through a list is that of the first element that fails. -/
theorem forM_eq_error {check : α → Except ε Unit} {xs : List α} {e : ε} :
    xs.forM check = .error e ↔ ∃ x, Reaches (check · = .ok ()) xs x ∧ check x = .error e := by
  induction xs with
  | nil => simp [not_reaches_nil, pure, Except.pure]
  | cons y ys ih =>
    rw [List.forM_eq_forM] at ih ⊢
    rw [List.forM_cons, check_bind_eq_error, ih]
    simp only [reaches_cons]
    constructor
    · intro h
      rcases h with h | ⟨hy, x, hr, hx⟩
      · exact ⟨y, .inl rfl, h⟩
      · exact ⟨x, .inr ⟨hy, hr⟩, hx⟩
    · intro h
      obtain ⟨x, rfl | ⟨hy, hr⟩, hx⟩ := h
      · exact .inl hx
      · exact .inr ⟨hy, x, hr, hx⟩

/-- A fold fails where a step fails, and all steps before it succeed. -/
theorem foldlM_eq_error {step : β → α → Except ε β} {start : β} {xs : List α} {e : ε} :
    xs.foldlM step start = .error e ↔ ∃ before x after reached, xs = before ++ x :: after ∧
      before.foldlM step start = .ok reached ∧ step reached x = .error e := by
  induction xs generalizing start with
  | nil => simp [pure, Except.pure]
  | cons y ys ih =>
    rw [List.foldlM_cons, bind_eq_error]
    simp only [ih]
    constructor
    · rintro (hy | ⟨next, hy, before, x, after, reached, rfl, hbefore, hx⟩)
      · exact ⟨[], y, ys, start, rfl, rfl, hy⟩
      · refine ⟨y :: before, x, after, reached, rfl, ?_, hx⟩
        rw [List.foldlM_cons, hy]
        exact hbefore
    · rintro ⟨before, x, after, reached, hlist, hbefore, hx⟩
      cases before with
      | nil =>
        cases hlist
        cases hbefore
        exact .inl hx
      | cons z before =>
        cases hlist
        rw [List.foldlM_cons] at hbefore
        obtain ⟨next, hy, hbefore⟩ := bind_eq_ok.mp hbefore
        exact .inr ⟨next, hy, before, x, after, reached, rfl, hbefore, hx⟩

end Tablewright.Checks
