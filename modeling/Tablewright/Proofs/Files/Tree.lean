import Tablewright.Files.Path
import Tablewright.Files.Tree
import Tablewright.Proofs.Checks
import Tablewright.Proofs.Text.Split

/-! What requests do to a file tree. A path leads to a location, and what is asked of the path is
asked of the location. Making directories changes nothing that is there, and writing a file changes
its location only, so what a path held before it holds after, unless it is the path that was
written. -/

namespace Tablewright

namespace Files

/-- The name of something in a directory: no path, and none of the names for directories that every
directory has. -/
structure IsSegment (name : String) : Prop where
  whole : '/' ∉ name.toList
  named : name ≠ ""
  notHere : name ≠ "."
  notAbove : name ≠ ".."

instance : DecidablePred IsSegment := fun name =>
  decidable_of_iff ('/' ∉ name.toList ∧ name ≠ "" ∧ name ≠ "." ∧ name ≠ "..")
    ⟨fun ⟨hwhole, hnamed, hhere, habove⟩ => ⟨hwhole, hnamed, hhere, habove⟩,
      fun h => ⟨h.whole, h.named, h.notHere, h.notAbove⟩⟩

/-- Without a slash there is nothing to cut. -/
theorem splitAt_slash {cs : List Char} (h : '/' ∉ cs) : Text.splitAt (· == '/') cs = [cs] :=
  Text.splitAt_of_forall_neg fun _ hc => beq_false_of_ne fun hslash => h (hslash ▸ hc)

theorem segments_of_whole {name : String} (h : '/' ∉ name.toList) :
    FileTree.segments name = [name] := by
  rw [FileTree.segments, splitAt_slash h, List.map_singleton, String.ofList_toList]

theorem head?_ne_slash {name : String} (h : '/' ∉ name.toList) : name.toList.head? ≠ some '/' :=
  fun hhead => h (List.mem_of_mem_head? hhead)

end Files

namespace FileTree

open Files

variable {fs fs' : FileTree} {here loc : Location} {name path text : String}

/-! ## Locations of paths -/

/-- The location that a path leads to. -/
def location (fs : FileTree) (path : String) : Except Fault Location :=
  fs.locate [] (segments path)

/-- Where one segment leads. -/
def step (here : Location) (segment : String) : Location :=
  if isHere segment then here
  else if segment = ".." then here.dropLast
  else here ++ [segment]

theorem step_empty (here : Location) : step here "" = here := rfl

theorem step_segment (h : IsSegment name) (here : Location) : step here name = here ++ [name] := by
  simp [step, isHere, h.named, h.notHere, h.notAbove]

/-- Only a directory can be left for somewhere else. -/
theorem locate_cons_eq_ok {segment : String} {rest : List String} :
    fs.locate here (segment :: rest) = .ok loc ↔
      fs.get? here = some .dir ∧ fs.locate (step here segment) rest = .ok loc := by
  rw [locate]
  unfold step
  cases fs.get? here with
  | none => simp
  | some entry =>
    cases entry with
    | dir =>
      rw [← apply_ite (fs.locate · rest), ← apply_ite (fs.locate · rest)]
      simp
    | file _ | binary _ => simp

theorem locate_append_eq_ok {before after : List String} :
    fs.locate here (before ++ after) = .ok loc ↔
      ∃ middle, fs.locate here before = .ok middle ∧ fs.locate middle after = .ok loc := by
  induction before generalizing here with
  | nil => simp [locate]
  | cons segment rest ih =>
    rw [List.cons_append, locate_cons_eq_ok, ih]
    simp only [locate_cons_eq_ok, and_assoc, exists_and_left]

theorem segments_append_slash (dir name : String) :
    segments (dir ++ "/" ++ name) = segments dir ++ segments name := by
  have hsplit : Text.splitAt (· == '/') (dir ++ "/" ++ name).toList =
      Text.splitAt (· == '/') dir.toList ++ Text.splitAt (· == '/') name.toList := by
    rw [String.append_assoc, String.toList_append, String.toList_append]
    exact Text.splitAt_append_cons rfl dir.toList name.toList
  rw [segments, hsplit, List.map_append]
  rfl

/-- A name without slashes leads on from what the path of the directory leads to. -/
theorem location_join_eq_step {dir : String} (hwhole : '/' ∉ name.toList) :
    fs.location (join dir name) = .ok loc ↔
      ∃ here, fs.location dir = .ok here ∧ fs.get? here = some .dir ∧ loc = step here name := by
  have hlast : ∀ here, fs.locate here [name] = .ok loc ↔
      fs.get? here = some .dir ∧ loc = step here name := by
    intro here
    rw [locate_cons_eq_ok]
    simp [locate, eq_comm]
  unfold location
  rw [join]
  split
  case isTrue hdir =>
    obtain rfl : dir = "" := by simpa [head?_ne_slash hwhole] using hdir
    have hroot : fs.locate [] (segments "") = .ok [] := rfl
    rw [segments_of_whole hwhole, hlast, hroot]
    simp
  case isFalse hdir =>
    split
    case isTrue hslash =>
      obtain ⟨start, hstart⟩ : ∃ start, dir = start ++ "/" := by
        obtain ⟨cs, hcs⟩ := List.getLast?_eq_some_iff.mp hslash
        exact ⟨.ofList cs, String.toList_inj.mp (by rw [hcs]; simp)⟩
      -- The directory asks for no more than what comes before the slash.
      have hsegments : segments dir = segments start ++ [""] := by
        have happend := segments_append_slash start ""
        rwa [String.append_empty, ← hstart] at happend
      rw [hstart, segments_append_slash, ← hstart, hsegments, segments_of_whole hwhole]
      simp only [locate_append_eq_ok, hlast, locate_cons_eq_ok, step_empty]
      simp [locate, and_assoc]
    case isFalse _ =>
      rw [segments_append_slash, segments_of_whole hwhole, locate_append_eq_ok]
      simp only [hlast]

/-- A name in a directory is found in what the path of the directory leads to. -/
theorem location_join_eq_ok {dir : String} (h : IsSegment name) :
    fs.location (join dir name) = .ok loc ↔
      ∃ here, fs.location dir = .ok here ∧ fs.get? here = some .dir ∧ loc = here ++ [name] := by
  simp only [location_join_eq_step h.whole, step_segment h]

/-! ## Requests -/

theorem read_eq_ok :
    fs.read path = .ok text ↔
      ∃ loc, fs.location path = .ok loc ∧ fs.get? loc = some (.file text) := by
  unfold read
  rw [Checks.bind_eq_ok]
  refine exists_congr fun loc => and_congr_right fun _ => ?_
  cases fs.get? loc with
  | none => simp
  | some entry => cases entry <;> simp [pure, Except.pure]

theorem write_eq_ok :
    fs.write path text = .ok fs' ↔
      ∃ loc, fs.location path = .ok loc ∧ fs.get? loc ≠ some .dir ∧
        fs' = fs.put loc (.file text) := by
  unfold write
  rw [Checks.bind_eq_ok]
  refine exists_congr fun loc => and_congr_right fun _ => ?_
  cases fs.get? loc with
  | none => simp [pure, Except.pure, eq_comm]
  | some entry => cases entry <;> simp [pure, Except.pure, eq_comm]

/-! ## What requests leave as it was -/

theorem ne_nil_of_ne_dir (h : fs.get? loc ≠ some .dir) : loc ≠ [] := by
  rintro rfl
  exact h rfl

/-- No directory has become something else. -/
def KeepsDirs (fs fs' : FileTree) : Prop :=
  ∀ loc, fs.get? loc = some .dir → fs'.get? loc = some .dir

theorem KeepsDirs.trans {middle : FileTree} (h : fs.KeepsDirs middle) (hrest : middle.KeepsDirs fs') :
    fs.KeepsDirs fs' :=
  fun loc hdir => hrest loc (h loc hdir)

/-- A path leads where it led. -/
theorem KeepsDirs.location (h : fs.KeepsDirs fs') (hloc : fs.location path = .ok loc) :
    fs'.location path = .ok loc := by
  unfold FileTree.location at hloc ⊢
  generalize segments path = rest at hloc ⊢
  generalize ([] : Location) = here at hloc ⊢
  induction rest generalizing here with
  | nil => exact hloc
  | cons segment rest ih =>
    obtain ⟨hdir, hrest⟩ := locate_cons_eq_ok.mp hloc
    exact locate_cons_eq_ok.mpr ⟨h here hdir, ih _ hrest⟩

theorem get?_put_of_ne {other : Location} (hne : other ≠ loc) (hroot : loc ≠ []) (entry : Entry) :
    (fs.put loc entry).get? other = fs.get? other := by
  rw [get?_put hroot, if_neg hne]

theorem get?_put_self (hroot : loc ≠ []) (entry : Entry) :
    (fs.put loc entry).get? loc = some entry := by
  rw [get?_put hroot, if_pos rfl]

/-- Making directories changes nothing that is there. -/
theorem get?_makeDirsFrom {rest : List String} (h : fs.makeDirsFrom here rest = .ok fs')
    {entry : Entry} (hget : fs.get? loc = some entry) : fs'.get? loc = some entry := by
  induction rest generalizing fs here with
  | nil =>
    cases h
    exact hget
  | cons segment rest ih =>
    rw [makeDirsFrom] at h
    split at h
    · exact ih h hget
    · split at h
      · exact ih h hget
      · dsimp only at h
        split at h
        · exact ih h hget
        · cases h
        · rename_i hnone
          have hne : loc ≠ here ++ [segment] := by
            rintro rfl
            rw [hnone] at hget
            cases hget
          exact ih h (by rwa [get?_put_of_ne hne (by simp)])

theorem read_makeDirs {dir : String} (h : fs.makeDirs dir = .ok fs')
    (hread : fs.read path = .ok text) : fs'.read path = .ok text := by
  obtain ⟨loc, hloc, hfile⟩ := read_eq_ok.mp hread
  have hdirs : fs.KeepsDirs fs' := fun _ hdir => get?_makeDirsFrom h hdir
  exact read_eq_ok.mpr ⟨loc, hdirs.location hloc, get?_makeDirsFrom h hfile⟩

theorem keepsDirs_put (h : fs.get? loc ≠ some .dir) (entry : Entry) :
    fs.KeepsDirs (fs.put loc entry) := by
  intro other hdir
  have hne : other ≠ loc := by
    rintro rfl
    exact h hdir
  rwa [get?_put_of_ne hne (ne_nil_of_ne_dir h)]

/-- What was written is read. -/
theorem read_write (h : fs.write path text = .ok fs') : fs'.read path = .ok text := by
  obtain ⟨loc, hloc, hdir, rfl⟩ := write_eq_ok.mp h
  exact read_eq_ok.mpr
    ⟨loc, (keepsDirs_put hdir _).location hloc, get?_put_self (ne_nil_of_ne_dir hdir) _⟩

/-- What other paths hold is not changed by writing. -/
theorem read_write_of_ne {other written : String} (h : fs.write other written = .ok fs')
    (hread : fs.read path = .ok text)
    (hne : ∀ loc, fs.location path = .ok loc → fs.location other ≠ .ok loc) :
    fs'.read path = .ok text := by
  obtain ⟨loc, hloc, hdir, rfl⟩ := write_eq_ok.mp h
  obtain ⟨held, hheld, hfile⟩ := read_eq_ok.mp hread
  have hother : held ≠ loc := by
    rintro rfl
    exact hne held hheld hloc
  refine read_eq_ok.mpr ⟨held, (keepsDirs_put hdir _).location hheld, ?_⟩
  rwa [get?_put_of_ne hother (ne_nil_of_ne_dir hdir)]

/-- Files of different names in one directory are at different locations. -/
theorem location_ne_of_name_ne {dir name' : String} (hname : IsSegment name)
    (hname' : IsSegment name') (hne : name ≠ name') (hloc : fs.location (join dir name) = .ok loc) :
    fs.location (join dir name') ≠ .ok loc := by
  intro hloc'
  obtain ⟨here, hhere, _, rfl⟩ := (location_join_eq_ok hname).mp hloc
  obtain ⟨here', hhere', _, heq⟩ := (location_join_eq_ok hname').mp hloc'
  obtain rfl := Except.ok.inj (hhere.symm.trans hhere')
  simp [hne] at heq

/-- Files in different directories of one directory are at different locations. -/
theorem location_ne_of_dir_ne {root dir dir' name' : String} (hdir : IsSegment dir)
    (hname : IsSegment name) (hdir' : IsSegment dir') (hname' : IsSegment name') (hne : dir ≠ dir')
    (hloc : fs.location (join (join root dir) name) = .ok loc) :
    fs.location (join (join root dir') name') ≠ .ok loc := by
  intro hloc'
  obtain ⟨_, hhere, _, rfl⟩ := (location_join_eq_ok hname).mp hloc
  obtain ⟨here, hroot, _, rfl⟩ := (location_join_eq_ok hdir).mp hhere
  obtain ⟨_, hhere', _, heq⟩ := (location_join_eq_ok hname').mp hloc'
  obtain ⟨here', hroot', _, rfl⟩ := (location_join_eq_ok hdir').mp hhere'
  obtain rfl := Except.ok.inj (hroot.symm.trans hroot')
  simp [hne] at heq

/-- A file beside a directory is not in it. -/
theorem location_ne_of_beside {root dir name' : String} (hdir : IsSegment dir)
    (hname : IsSegment name) (hname' : IsSegment name')
    (hloc : fs.location (join (join root dir) name) = .ok loc) :
    fs.location (join root name') ≠ .ok loc := by
  intro hloc'
  obtain ⟨_, hhere, _, rfl⟩ := (location_join_eq_ok hname).mp hloc
  obtain ⟨here, hroot, _, rfl⟩ := (location_join_eq_ok hdir).mp hhere
  obtain ⟨here', hroot', _, heq⟩ := (location_join_eq_ok hname').mp hloc'
  obtain rfl := Except.ok.inj (hroot.symm.trans hroot')
  simp at heq

end FileTree

end Tablewright
