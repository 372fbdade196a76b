import Tablewright.Error
import Tablewright.Files.Tree

/-! Actions on a file tree, or on another state that answers requests. `on` runs an action on a
tree: it gives the answer and the tree that is left. An action is `Safe` for a property of trees if it
keeps the property, whether it succeeds or fails, and fails for nothing but its files. -/

namespace Tablewright

namespace Error

/-- The error is about a path, or about the name of an output file. -/
def IsAboutFiles : Error → Prop
  | .file _ _ | .outputName _ _ => True
  | .schema _ | .table _ _ | .stored => False

end Error

namespace Attempt

/-! ## Running -/

section Run

variable {α β σ : Type}

theorem run_bind (x : Attempt (StateM σ) α) (next : α → Attempt (StateM σ) β) (s : σ) :
    (x >>= next).run s = match x.run s with
      | (.ok a, s') => (next a).run s'
      | (.error e, s') => (.error e, s') := by
  show (match x.run s with
    | (answer, s') => ExceptT.bindCont next answer s' : Except Error β × σ) = _
  cases x.run s with
  | mk answer s' => cases answer <;> rfl

theorem run_request (path : String) (answer : StateM σ (Except Fault α)) (s : σ) :
    (request path answer).run s = ((answer s).1.mapError (.file path), (answer s).2) := by
  have hlift : (liftM answer : Attempt (StateM σ) (Except Fault α)).run s =
      (.ok (answer s).1, (answer s).2) := rfl
  rw [request, run_bind, hlift]
  cases hanswer : (answer s).1 <;> rfl

end Run

variable {α β : Type} {x : Attempt (StateM FileTree) α} {next : α → Attempt (StateM FileTree) β}
  {fs fs' : FileTree}

/-- What an action answers on a file tree, and the tree that it leaves. -/
def on (x : Attempt (StateM FileTree) α) (fs : FileTree) : Except Error α × FileTree := x.run fs

theorem on_bind : (x >>= next).on fs =
    match x.on fs with
    | (.ok a, fs') => (next a).on fs'
    | (.error e, fs') => (.error e, fs') := by
  unfold on
  rw [run_bind]
  cases x.run fs with
  | mk answer fs' => cases answer <;> rfl

theorem on_bind_of_ok {a : α} (h : x.on fs = (.ok a, fs')) :
    (x >>= next).on fs = (next a).on fs' := by
  rw [on_bind, h]

theorem on_bind_of_error {e : Error} (h : x.on fs = (.error e, fs')) :
    (x >>= next).on fs = (.error e, fs') := by
  rw [on_bind, h]

/-- An action whose answer is turned into another. -/
theorem on_bind_pure (x : Attempt (StateM FileTree) α) (f : α → β) (fs : FileTree) :
    (x >>= fun a => pure (f a)).on fs = ((x.on fs).1.map f, (x.on fs).2) := by
  rw [on_bind]
  cases x.on fs with
  | mk answer fs' => cases answer <;> rfl

theorem on_bind_eq_ok {b : β} :
    (x >>= next).on fs = (.ok b, fs') ↔
      ∃ a middle, x.on fs = (.ok a, middle) ∧ (next a).on middle = (.ok b, fs') := by
  rw [on_bind]
  cases x.on fs with
  | mk answer middle =>
    cases answer with
    | ok a =>
      constructor
      · exact fun h => ⟨a, middle, rfl, h⟩
      · rintro ⟨_, _, hfirst, h⟩
        cases hfirst
        exact h
    | error e => simp

theorem on_request (path : String) (answer : StateM FileTree (Except Fault α)) (fs : FileTree) :
    (request path answer).on fs = ((answer fs).1.mapError (.file path), (answer fs).2) :=
  run_request path answer fs

theorem on_ofExcept (answer : Except Error α) (fs : FileTree) :
    (MonadExcept.ofExcept answer : Attempt (StateM FileTree) α).on fs = (answer, fs) := by
  cases answer <;> rfl

theorem on_list (path dir : String) (fs : FileTree) :
    (request path (FileAccess.list dir)).on fs = ((fs.list dir).mapError (.file path), fs) :=
  on_request path (FileAccess.list dir) fs

theorem on_read (path : String) (fs : FileTree) :
    (request path (FileAccess.read path)).on fs = ((fs.read path).mapError (.file path), fs) :=
  on_request path (FileAccess.read path) fs

theorem on_write_eq_ok {path text : String} {done : Unit} :
    (request path (FileAccess.write path text)).on fs = (.ok done, fs') ↔
      fs.write path text = .ok fs' := by
  rw [on_request]
  show ((fs.changed (fs.write path text)).1.mapError _, (fs.changed (fs.write path text)).2) = _ ↔ _
  cases fs.write path text with
  | error fault =>
    show ((.error (.file path fault), fs) : Except Error Unit × FileTree) = _ ↔ _
    simp
  | ok written =>
    show ((.ok (), written) : Except Error Unit × FileTree) = _ ↔ _
    simp

/-! ## Actions that keep a property of trees -/

structure Safe (P : FileTree → Prop) (x : Attempt (StateM FileTree) α) : Prop where
  keeps : ∀ fs, P fs → P (x.on fs).2
  fails : ∀ fs e, (x.on fs).1 = .error e → e.IsAboutFiles

namespace Safe

variable {P : FileTree → Prop}

theorem pure (a : α) : Safe P (Pure.pure a) where
  keeps _ h := h
  fails _ _ h := by cases h

theorem bind (hx : Safe P x) (hnext : ∀ a, Safe P (next a)) : Safe P (x >>= next) where
  keeps fs h := by
    have hfirst := hx.keeps fs h
    cases hrun : x.on fs with
    | mk answer fs' =>
      rw [hrun] at hfirst
      cases answer with
      | ok a =>
        rw [on_bind_of_ok hrun]
        exact (hnext a).keeps fs' hfirst
      | error e =>
        rw [on_bind_of_error hrun]
        exact hfirst
  fails fs e h := by
    cases hrun : x.on fs with
    | mk answer fs' =>
      cases answer with
      | ok a =>
        rw [on_bind_of_ok hrun] at h
        exact (hnext a).fails fs' e h
      | error e' =>
        rw [on_bind_of_error hrun] at h
        cases h
        exact hx.fails fs e (by rw [hrun])

theorem request {path : String} {answer : StateM FileTree (Except Fault α)}
    (keeps : ∀ fs, P fs → P (answer fs).2) : Safe P (Attempt.request path answer) where
  keeps fs h := by
    rw [on_request]
    exact keeps fs h
  fails fs e h := by
    rw [on_request] at h
    cases hanswer : (answer fs).1 with
    | ok a =>
      rw [hanswer] at h
      cases h
    | error fault =>
      rw [hanswer] at h
      cases h
      trivial

/-- A request that changes the tree if it succeeds. -/
theorem change (change : FileTree → Except Fault FileTree) {path : String}
    {answer : StateM FileTree (Except Fault Unit)} (hanswer : ∀ fs, answer fs = fs.changed (change fs))
    (keeps : ∀ fs fs', P fs → change fs = .ok fs' → P fs') :
    Safe P (Attempt.request path answer) := by
  refine .request fun fs h => ?_
  rw [hanswer]
  cases hchange : change fs with
  | ok fs' => exact keeps fs fs' h hchange
  | error fault => exact h

theorem ofExcept_bind {answer : Except Error α} (hfails : ∀ e, answer = .error e → e.IsAboutFiles)
    (hnext : ∀ a, answer = .ok a → Safe P (next a)) :
    Safe P ((MonadExcept.ofExcept answer : Attempt (StateM FileTree) α) >>= next) := by
  cases answer with
  | ok a => exact hnext a rfl
  | error e => exact ⟨fun _ h => h, fun _ _ h => by cases h; exact hfails e rfl⟩

theorem mapM {f : α → Attempt (StateM FileTree) β} {xs : List α} (h : ∀ a ∈ xs, Safe P (f a)) :
    Safe P (xs.mapM f) := by
  induction xs with
  | nil => exact .pure []
  | cons a xs ih =>
    obtain ⟨ha, hxs⟩ := List.forall_mem_cons.mp h
    rw [List.mapM_cons]
    exact ha.bind fun _ => (ih hxs).bind fun _ => .pure _

end Safe

end Attempt

end Tablewright
