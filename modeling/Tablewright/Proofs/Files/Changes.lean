import Tablewright.Proofs.Files.Tree

/-! The files of a tree, and what requests change of them. Making directories changes no file.
Where a file can be written it still can after another one has been. -/

namespace Tablewright

namespace Entry

def isFile : Entry → Bool
  | .dir => false
  | .file _ | .binary _ => true

end Entry

namespace FileTree

open Files

variable {fs fs' made left : FileTree} {here loc : Location} {dir name path text : String}

/-- The file at a location, if there is one. -/
def file? (fs : FileTree) (loc : Location) : Option Entry := (fs.get? loc).filter Entry.isFile

theorem file?_put (hroot : loc ≠ []) (text : String) (other : Location) :
    (fs.put loc (.file text)).file? other =
      if other = loc then some (.file text) else fs.file? other := by
  rw [file?, get?_put hroot]
  split
  · rfl
  · rfl

theorem file?_makeDirsFrom {rest : List String} (h : fs.makeDirsFrom here rest = .ok made)
    (loc : Location) : made.file? loc = fs.file? loc := by
  induction rest generalizing fs here with
  | nil =>
    cases h
    rfl
  | cons segment rest ih =>
    rw [makeDirsFrom] at h
    split at h
    · exact ih h
    · split at h
      · exact ih h
      · dsimp only at h
        split at h
        · exact ih h
        · cases h
        · rename_i hnone
          rw [ih h, file?, file?, get?_put (by simp)]
          -- The new directory is where there was nothing, so no file is lost or gained.
          split
          · rename_i heq
            rw [heq, hnone]
            rfl
          · rfl

/-- Making directories neither makes a file nor changes one. -/
theorem file?_makeDirs (h : fs.makeDirs dir = .ok made) (loc : Location) :
    made.file? loc = fs.file? loc :=
  file?_makeDirsFrom h loc

/-! ## Directories that are there -/

theorem keepsDirs_makeDirs (h : fs.makeDirs dir = .ok made) : fs.KeepsDirs made :=
  fun _ hdir => get?_makeDirsFrom h hdir

theorem keepsDirs_write (h : fs.write path text = .ok left) : fs.KeepsDirs left := by
  obtain ⟨loc, _, hne, rfl⟩ := write_eq_ok.mp h
  exact keepsDirs_put hne _

/-- Directories that have been made are found, as long as none is lost, and need not be made. -/
theorem makeDirsFrom_again {rest : List String} (h : fs.makeDirsFrom here rest = .ok made)
    (hkeeps : made.KeepsDirs left) : left.makeDirsFrom here rest = .ok left := by
  induction rest generalizing fs here with
  | nil => rfl
  | cons segment rest ih =>
    rw [makeDirsFrom] at h ⊢
    split at h
    case isTrue hhere =>
      rw [if_pos hhere]
      exact ih h
    case isFalse hhere =>
      rw [if_neg hhere]
      split at h
      case isTrue habove =>
        rw [if_pos habove]
        exact ih h
      case isFalse habove =>
        rw [if_neg habove]
        have hnext : left.get? (here ++ [segment]) = some .dir ∧
            left.makeDirsFrom (here ++ [segment]) rest = .ok left := by
          dsimp only at h
          split at h
          · rename_i hdir
            exact ⟨hkeeps _ (get?_makeDirsFrom h hdir), ih h⟩
          · cases h
          · exact ⟨hkeeps _ (get?_makeDirsFrom h (get?_put_self (by simp) _)), ih h⟩
        dsimp only
        rw [hnext.1]
        exact hnext.2

theorem makeDirs_again (h : fs.makeDirs dir = .ok made) (hkeeps : made.KeepsDirs left) :
    left.makeDirs dir = .ok left :=
  makeDirsFrom_again h hkeeps

/-! ## Where a file can be written -/

/-- Any text can be written to a file of the directory, which can be made if it is not there. -/
def Takes (fs : FileTree) (dir name : String) : Prop :=
  ∃ made, fs.makeDirs dir = .ok made ∧ ∀ text, ∃ left, made.write (join dir name) text = .ok left

/-- A file can be written where its path leads somewhere, if not to a directory. -/
theorem takes_iff : fs.Takes dir name ↔ ∃ made loc, fs.makeDirs dir = .ok made ∧
    made.location (join dir name) = .ok loc ∧ made.get? loc ≠ some .dir := by
  constructor
  · rintro ⟨made, hmade, hwrite⟩
    obtain ⟨_, hleft⟩ := hwrite ""
    obtain ⟨loc, hloc, hne, _⟩ := write_eq_ok.mp hleft
    exact ⟨made, loc, hmade, hloc, hne⟩
  · rintro ⟨made, loc, hmade, hloc, hne⟩
    exact ⟨made, hmade, fun text => ⟨_, write_eq_ok.mpr ⟨loc, hloc, hne, rfl⟩⟩⟩

theorem takes_of_write (hmade : fs.makeDirs dir = .ok made)
    (hwrite : made.write (join dir name) text = .ok left) : fs.Takes dir name := by
  obtain ⟨loc, hloc, hne, _⟩ := write_eq_ok.mp hwrite
  exact takes_iff.mpr ⟨made, loc, hmade, hloc, hne⟩

/-- The directory's own name leads to the directory, which is no file. -/
theorem not_takes_here : ¬ fs.Takes dir "." := by
  intro h
  obtain ⟨made, loc, _, hloc, hne⟩ := takes_iff.mp h
  obtain ⟨here, _, hdir, hstep⟩ := (location_join_eq_step (by decide)).mp hloc
  obtain rfl : loc = here := hstep
  exact hne hdir

/-- What can be written still can when something else has been written to the directory. -/
theorem Takes.write (h : fs.Takes dir name) (hmade : fs.makeDirs dir = .ok made)
    (hwrite : made.write path text = .ok left) : left.Takes dir name := by
  have hkeeps := keepsDirs_write hwrite
  obtain ⟨made', loc, hmade', hloc, hne⟩ := takes_iff.mp h
  obtain rfl := Except.ok.inj (hmade.symm.trans hmade')
  refine takes_iff.mpr ⟨left, loc, makeDirs_again hmade hkeeps, hkeeps.location hloc, ?_⟩
  obtain ⟨written, _, hfile, rfl⟩ := write_eq_ok.mp hwrite
  rw [get?_put (ne_nil_of_ne_dir hfile)]
  split
  · exact fun heq => by cases heq
  · exact hne

end FileTree

end Tablewright
