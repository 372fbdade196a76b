import Tablewright.Proofs.Files.Changes
import Tablewright.Proofs.Files.Watched
import Tablewright.Proofs.Project.Write
import Tablewright.Proofs.Text.Blank

/-! An output file stays in its directory. A name is refused unless it names one file there, and a
refused name changes nothing, with one exception: the name that every directory has for itself is
accepted, and writing it fails when the directory has been made. -/

namespace Tablewright

namespace Project

open Files FileTree Attempt Watched

variable {dir name text : String} {fs made : FileTree} {w : Watched}

/-! ## Names of one file -/

/-- The name of one file: no path, not blank, and none of the names for directories that every
directory has. -/
structure IsFileName (name : String) : Prop where
  notBlank : ∃ c ∈ name.toList, Text.isBlank c = false
  notHere : name ≠ "."
  notAbove : name ≠ ".."
  noSlash : '/' ∉ name.toList
  noBackslash : '\\' ∉ name.toList

theorem IsFileName.isSegment (h : IsFileName name) : IsSegment name where
  whole := h.noSlash
  named := by
    rintro rfl
    obtain ⟨c, hc, _⟩ := h.notBlank
    cases hc
  notHere := h.notHere
  notAbove := h.notAbove

/-- The accepted names are those of one file, and the directory's own. -/
theorem nameFault?_eq_none_iff : nameFault? name = none ↔ IsFileName name ∨ name = "." := by
  constructor
  · intro h
    by_cases hhere : name = "."
    · exact .inr hhere
    · refine .inl ?_
      unfold nameFault? at h
      dsimp only at h
      split_ifs at h with hblank _ habove hseparator
      simp only [List.isEmpty_iff, Text.trim_eq_nil_iff, not_forall, Bool.not_eq_true] at hblank
      obtain ⟨c, hc, hblank⟩ := hblank
      simp only [Bool.or_eq_true, List.contains_iff_mem, not_or] at hseparator
      refine ⟨⟨c, hc, hblank⟩, hhere, ?_, hseparator.1, hseparator.2⟩
      rintro rfl
      exact habove (by decide)
  · rintro (h | rfl)
    · obtain ⟨c, hc, hblank⟩ := h.notBlank
      have hseen : ¬ (Text.trim name.toList).isEmpty = true := by
        rw [List.isEmpty_iff, Text.trim_eq_nil_iff]
        intro hall
        rw [hall c hc] at hblank
        cases hblank
      have habove : ¬ (Text.splitAt (· == '/') name.toList).contains ['.', '.'] = true := by
        rw [splitAt_slash h.noSlash, List.contains_iff_mem, List.mem_singleton]
        exact fun heq => h.notAbove (String.toList_inj.mp heq.symm)
      have hwhole : ¬ (name.toList.contains '/' || name.toList.contains '\\') = true := by
        simp only [Bool.or_eq_true, List.contains_iff_mem, not_or]
        exact ⟨h.noSlash, h.noBackslash⟩
      unfold nameFault?
      dsimp only
      rw [if_neg hseen, if_neg (head?_ne_slash h.noSlash), if_neg habove, if_neg hwhole]
    · decide

theorem exists_nameFault? (h : ¬ IsFileName name) (hhere : name ≠ ".") :
    ∃ fault, nameFault? name = some fault :=
  Option.ne_none_iff_exists'.mp fun hnone =>
    (nameFault?_eq_none_iff.mp hnone).elim h hhere

/-! ## What writing comes to -/

/-- The ways in which writing an output file can end: its answer, and what is left of the tree and
of what was opened. -/
inductive Outcome (dir name text : String) (w : Watched) : Except Error String × Watched → Prop
  | refused {fault : NameFault} : nameFault? name = some fault →
    Outcome dir name text w (.error (.outputName name fault), w)
  | noDirectory {fault : Fault} : nameFault? name = none → w.tree.makeDirs dir = .error fault →
    Outcome dir name text w (.error (.file dir fault), w)
  | noFile {made : FileTree} {fault : Fault} : nameFault? name = none →
    w.tree.makeDirs dir = .ok made → made.write (join dir name) text = .error fault →
    Outcome dir name text w
      (.error (.file (join dir name) fault), ⟨made, w.opened ++ [join dir name]⟩)
  | written {made left : FileTree} : nameFault? name = none →
    w.tree.makeDirs dir = .ok made → made.write (join dir name) text = .ok left →
    Outcome dir name text w (.ok (join dir name), ⟨left, w.opened ++ [join dir name]⟩)

theorem outcome_writeOutput (dir name text : String) (w : Watched) :
    Outcome dir name text w ((writeOutput (m := StateM Watched) dir name text).run w) := by
  unfold writeOutput checkName
  rw [Attempt.run_bind]
  cases hname : nameFault? name with
  | some fault => exact .refused hname
  | none =>
    show Outcome dir name text w ((Attempt.request dir (FileAccess.makeDirs dir) >>= fun _ => _ :
      Attempt (StateM Watched) String).run w)
    rw [Attempt.run_bind, run_makeDirs]
    cases hdirs : w.tree.makeDirs dir with
    | error fault => exact .noDirectory hname hdirs
    | ok made =>
      dsimp only
      rw [Attempt.run_bind, run_write]
      cases hwrite : made.write (join dir name) text with
      | error fault => exact .noFile hname hdirs hwrite
      | ok left => exact .written hname hdirs hwrite

/-- Under watch an output file is written as it is without. -/
theorem shows_writeOutput (dir name text : String) :
    Shows (writeOutput dir name text) (writeOutput dir name text) := by
  unfold writeOutput
  refine .bind (.ofExcept _) fun _ => ?_
  refine .bind (.request fun _ => rfl) fun _ => ?_
  exact .bind (.request fun _ => rfl) fun _ => .pure _

theorem exists_outcome_on (dir name text : String) (fs : FileTree) :
    ∃ r, Outcome dir name text ⟨fs, []⟩ r ∧ (writeOutput dir name text).on fs = (r.1, r.2.tree) :=
  ⟨_, outcome_writeOutput dir name text ⟨fs, []⟩, shows_writeOutput dir name text ⟨fs, []⟩⟩

/-! ## Output files stay in their directories -/

/-- A file could not be written: the error is about a path, no file has changed, and none but its own
path was opened for writing. -/
structure FailsToWrite (dir name : String) (w : Watched) (r : Except Error String × Watched) :
    Prop where
  error : ∃ path fault, r.1 = .error (.file path fault)
  opened : r.2.opened = w.opened ∨ r.2.opened = w.opened ++ [join dir name]
  files : ∀ loc, r.2.tree.file? loc = w.tree.file? loc

/-- A file was written, and its path answered: it lies right in the directory, no other path was
opened for writing, and no other file has changed. -/
structure WritesFile (dir name text : String) (w : Watched) (r : Except Error String × Watched) :
    Prop where
  answer : r.1 = .ok (join dir name)
  opened : r.2.opened = w.opened ++ [join dir name]
  holds : r.2.tree.read (join dir name) = .ok text
  inside : ∃ here, r.2.tree.location dir = .ok here ∧
    r.2.tree.location (join dir name) = .ok (here ++ [name]) ∧
    ∀ loc, loc ≠ here ++ [name] → r.2.tree.file? loc = w.tree.file? loc

variable {r : Except Error String × Watched}

theorem Outcome.eq_of_nameFault? {fault : NameFault} (h : Outcome dir name text w r)
    (hname : nameFault? name = some fault) : r = (.error (.outputName name fault), w) := by
  cases h with
  | refused hrefused =>
    rw [hname] at hrefused
    cases hrefused
    rfl
  | noDirectory hnone | noFile hnone | written hnone =>
    rw [hname] at hnone
    cases hnone

theorem Outcome.failsToWrite (h : Outcome dir name text w r) (hname : nameFault? name = none)
    (htakes : ¬ w.tree.Takes dir name) : FailsToWrite dir name w r := by
  cases h with
  | refused hfault =>
    rw [hname] at hfault
    cases hfault
  | noDirectory _ _ => exact ⟨⟨_, _, rfl⟩, .inl rfl, fun _ => rfl⟩
  | noFile _ hdirs _ => exact ⟨⟨_, _, rfl⟩, .inr rfl, file?_makeDirs hdirs⟩
  | written _ hdirs hwrite => exact absurd (takes_of_write hdirs hwrite) htakes

theorem Outcome.eq_of_takes (h : Outcome dir name text w r) (hname : nameFault? name = none)
    (htakes : w.tree.Takes dir name) : ∃ made left, w.tree.makeDirs dir = .ok made ∧
      made.write (join dir name) text = .ok left ∧
      r = (.ok (join dir name), ⟨left, w.opened ++ [join dir name]⟩) := by
  obtain ⟨made, hmade, hwrites⟩ := htakes
  obtain ⟨left, hleft⟩ := hwrites text
  cases h with
  | refused hfault =>
    rw [hname] at hfault
    cases hfault
  | noDirectory _ hdirs =>
    rw [hmade] at hdirs
    cases hdirs
  | noFile _ hdirs hwrite =>
    obtain rfl := Except.ok.inj (hmade.symm.trans hdirs)
    rw [hleft] at hwrite
    cases hwrite
  | written _ hdirs hwrite => exact ⟨_, _, hdirs, hwrite, rfl⟩

/-- A file at a segment of its directory is all that writing changes. -/
theorem writesFile_of_write {left : FileTree} (hname : IsSegment name)
    (hdirs : w.tree.makeDirs dir = .ok made) (hwrite : made.write (join dir name) text = .ok left) :
    WritesFile dir name text w (.ok (join dir name), ⟨left, w.opened ++ [join dir name]⟩) := by
  obtain ⟨loc, hloc, hne, hleft⟩ := write_eq_ok.mp hwrite
  obtain ⟨here, hhere, _, rfl⟩ := (location_join_eq_ok hname).mp hloc
  have hkeeps := keepsDirs_write hwrite
  refine ⟨rfl, rfl, read_write hwrite, here, hkeeps.location hhere, hkeeps.location hloc, ?_⟩
  intro other hother
  show left.file? other = _
  rw [hleft, file?_put (ne_nil_of_ne_dir hne), if_neg hother, file?_makeDirs hdirs]

/-- A name that is not the name of one file is refused, and nothing is changed, not even the
directory made. The file of such a name is written right into the directory, if it can be, and no
other path is opened for writing and no other file changed. The directory's own name for itself is
not refused, but writing it fails. -/
theorem writeOutput_staysInside (dir name text : String) (w : Watched) :
    let r := (writeOutput (m := StateM Watched) dir name text).run w
    (¬ IsFileName name → name ≠ "." → ∃ fault, r = (.error (.outputName name fault), w)) ∧
    (IsFileName name → (w.tree.Takes dir name → WritesFile dir name text w r) ∧
      (¬ w.tree.Takes dir name → FailsToWrite dir name w r)) ∧
    (name = "." → FailsToWrite dir name w r) := by
  have houtcome := outcome_writeOutput dir name text w
  refine ⟨fun hname hhere => ?refused, fun hname => ⟨fun htakes => ?written, ?failed⟩, ?here⟩
  case refused =>
    obtain ⟨fault, hfault⟩ := exists_nameFault? hname hhere
    exact ⟨fault, houtcome.eq_of_nameFault? hfault⟩
  case written =>
    obtain ⟨made, left, hdirs, hwrite, hr⟩ :=
      houtcome.eq_of_takes (nameFault?_eq_none_iff.mpr (.inl hname)) htakes
    exact hr ▸ writesFile_of_write hname.isSegment hdirs hwrite
  case failed => exact houtcome.failsToWrite (nameFault?_eq_none_iff.mpr (.inl hname))
  case here =>
    rintro rfl
    exact houtcome.failsToWrite (nameFault?_eq_none_iff.mpr (.inr rfl)) not_takes_here

/-- The directory is made before its own name is found to lead to it. -/
theorem ownName_not_refused : ¬ IsFileName "." ∧
    (writeOutput (m := StateM Watched) "out" "." "x").run ⟨.empty, []⟩ =
      (.error (.file "out/." .isDirectory), ⟨⟨[(["out"], .dir)]⟩, ["out/."]⟩) :=
  ⟨fun h => h.notHere rfl, by rfl⟩

/-! ## Output files on a tree -/

theorem on_writeOutput_of_fault {fault : NameFault} (h : nameFault? name = some fault)
    (fs : FileTree) :
    (writeOutput dir name text).on fs = (.error (.outputName name fault), fs) := by
  obtain ⟨r, houtcome, hon⟩ := exists_outcome_on dir name text fs
  rw [hon, houtcome.eq_of_nameFault? h]

theorem on_writeOutput_of_takes (hname : IsFileName name) (htakes : fs.Takes dir name)
    (text : String) :
    ∃ made left, fs.makeDirs dir = .ok made ∧ made.write (join dir name) text = .ok left ∧
      (writeOutput dir name text).on fs = (.ok (join dir name), left) := by
  obtain ⟨r, houtcome, hon⟩ := exists_outcome_on dir name text fs
  obtain ⟨made, left, hmade, hwrite, rfl⟩ :=
    houtcome.eq_of_takes (nameFault?_eq_none_iff.mpr (.inl hname)) htakes
  exact ⟨made, left, hmade, hwrite, hon⟩

theorem exists_write_of_on {path : String} {left : FileTree}
    (h : (writeOutput dir name text).on fs = (.ok path, left)) :
    ∃ made, fs.makeDirs dir = .ok made ∧ made.write (join dir name) text = .ok left := by
  obtain ⟨r, houtcome, hon⟩ := exists_outcome_on dir name text fs
  rw [h] at hon
  cases houtcome with
  | written _ hmade hwrite =>
    cases hon
    exact ⟨_, hmade, hwrite⟩
  | refused _ | noDirectory _ _ | noFile _ _ _ => cases hon

end Project

end Tablewright
