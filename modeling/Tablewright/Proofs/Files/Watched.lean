import Tablewright.Proofs.Files.Attempt

/-! A file tree under watch. Actions run on it as they run on the tree alone, and every path that
they open for writing is noted, whether it can be written or not. -/

namespace Tablewright

/-- A file tree with the paths that were opened for writing, the first one first. -/
structure Watched where
  tree : FileTree
  opened : List String

namespace Watched

/-- What comes of a request that changes the tree if it succeeds. -/
def changed (w : Watched) (change : Except Fault FileTree) : Except Fault Unit × Watched :=
  ((w.tree.changed change).1, ⟨(w.tree.changed change).2, w.opened⟩)

instance : FileAccess (StateM Watched) where
  list path := fun w => (w.tree.list path, w)
  read path := fun w => (w.tree.read path, w)
  makeDirs path := fun w => w.changed (w.tree.makeDirs path)
  write path text := fun w =>
    changed ⟨w.tree, w.opened ++ [path]⟩ (w.tree.write path text)

theorem run_makeDirs (path dir : String) (w : Watched) :
    (Attempt.request path (FileAccess.makeDirs dir) : Attempt (StateM Watched) Unit).run w =
      match w.tree.makeDirs dir with
      | .ok made => (.ok (), ⟨made, w.opened⟩)
      | .error fault => (.error (.file path fault), w) := by
  rw [Attempt.run_request]
  show ((w.changed (w.tree.makeDirs dir)).1.mapError _, (w.changed (w.tree.makeDirs dir)).2) = _
  cases w.tree.makeDirs dir <;> rfl

theorem run_write (path written text : String) (w : Watched) :
    (Attempt.request path (FileAccess.write written text) : Attempt (StateM Watched) Unit).run w =
      match w.tree.write written text with
      | .ok left => (.ok (), ⟨left, w.opened ++ [written]⟩)
      | .error fault => (.error (.file path fault), ⟨w.tree, w.opened ++ [written]⟩) := by
  rw [Attempt.run_request]
  show ((changed ⟨w.tree, w.opened ++ [written]⟩ (w.tree.write written text)).1.mapError _,
    (changed ⟨w.tree, w.opened ++ [written]⟩ (w.tree.write written text)).2) = _
  cases w.tree.write written text <;> rfl

/-! ## Watching changes nothing -/

variable {α β : Type}

/-- Under watch, one action does to the tree what the other does, and gives the same answer. -/
def Shows (watched : Attempt (StateM Watched) α) (x : Attempt (StateM FileTree) α) : Prop :=
  ∀ w, x.on w.tree = ((watched.run w).1, (watched.run w).2.tree)

namespace Shows

theorem pure (a : α) : Shows (Pure.pure a) (Pure.pure a) := fun _ => rfl

theorem ofExcept (answer : Except Error α) :
    Shows (MonadExcept.ofExcept answer) (MonadExcept.ofExcept answer) := by
  intro w
  cases answer <;> rfl

theorem request {path : String} {watched : StateM Watched (Except Fault α)}
    {answer : StateM FileTree (Except Fault α)}
    (h : ∀ w, answer w.tree = ((watched w).1, (watched w).2.tree)) :
    Shows (Attempt.request path watched) (Attempt.request path answer) := by
  intro w
  rw [Attempt.on_request, Attempt.run_request, h]

theorem bind {watched : Attempt (StateM Watched) α} {x : Attempt (StateM FileTree) α}
    {watchedNext : α → Attempt (StateM Watched) β} {next : α → Attempt (StateM FileTree) β}
    (hx : Shows watched x) (hnext : ∀ a, Shows (watchedNext a) (next a)) :
    Shows (watched >>= watchedNext) (x >>= next) := by
  intro w
  rw [Attempt.on_bind, Attempt.run_bind, hx w]
  cases watched.run w with
  | mk answer w' =>
    cases answer with
    | ok a => exact hnext a w'
    | error e => rfl

end Shows

end Watched

end Tablewright
