import Tablewright.Proofs.Project.Write
import Tablewright.Proofs.Schema.Validity

/-! The files that a run writes one after another. Files of different places under the root do not
disturb each other, and of those that share a place the last one stays. -/

namespace Tablewright

namespace Files

/-- A name in a directory is the name behind a text that only depends on the directory. -/
theorem exists_join_eq (dir : String) :
    ∃ start, ∀ name, IsSegment name → join dir name = start ++ name := by
  by_cases hempty : dir = ""
  · exact ⟨"", fun name _ => by simp [join, hempty]⟩
  · by_cases hslash : dir.toList.getLast? = some '/'
    · exact ⟨dir, fun name hname => by simp [join, hempty, hslash, head?_ne_slash hname.whole]⟩
    · exact ⟨dir ++ "/", fun name hname => by simp [join, hempty, hslash, head?_ne_slash hname.whole]⟩

/-- Behind a segment comes a slash. -/
theorem join_append {start dir name : String} (hdir : IsSegment dir) (hname : IsSegment name) :
    join (start ++ dir) name = start ++ (dir ++ "/" ++ name) := by
  have hchars : dir.toList ≠ [] := fun h => hdir.named (String.toList_eq_nil_iff.mp h)
  have hslash : (start ++ dir).toList.getLast? ≠ some '/' := by
    rw [String.toList_append, List.getLast?_append_of_ne_nil _ hchars]
    exact fun hlast => hdir.whole (List.mem_of_getLast? hlast)
  rw [join, if_neg (by simpa using ⟨fun _ => hdir.named, head?_ne_slash hname.whole⟩), if_neg hslash]
  simp only [String.append_assoc]

end Files

namespace Project

open Files FileTree Attempt

/-- A generated file: the directory under the root that it lies in, if it does not lie in the root
itself, its name and its text. -/
structure Artifact where
  package : Option String
  name : String
  text : String

namespace Artifact

def dir (root : String) (a : Artifact) : String := a.package.elim root (join root)

def path (root : String) (a : Artifact) : String := join (a.dir root) a.name

/-- Artifacts of one place are one file. -/
def place (a : Artifact) : Option String × String := (a.package, a.name)

/-- The artifact lies in its directory, and its directory in the root. -/
structure IsPlaced (a : Artifact) : Prop where
  package : ∀ p ∈ a.package, IsSegment p
  name : IsSegment a.name

/-- The artifact is not its own directory. That its name is fit for a file is checked when it is
written. -/
structure IsProper (a : Artifact) : Prop where
  package : ∀ p ∈ a.package, IsSegment p
  name : a.name ≠ "."

variable {root : String} {a b : Artifact} {fs : FileTree} {loc : Location}

theorem path_eq_of_place_eq (h : a.place = b.place) : a.path root = b.path root := by
  obtain ⟨hpackage, hname⟩ := Prod.ext_iff.mp h
  unfold path dir
  rw [show a.package = b.package from hpackage, show a.name = b.name from hname]

/-- Two places are different files. -/
theorem location_ne (ha : a.IsPlaced) (hb : b.IsPlaced) (hne : a.place ≠ b.place)
    (hloc : fs.location (a.path root) = .ok loc) : fs.location (b.path root) ≠ .ok loc := by
  obtain ⟨package, name, text⟩ := a
  obtain ⟨package', name', text'⟩ := b
  cases package with
  | none =>
    cases package' with
    | none =>
      refine location_ne_of_name_ne ha.name hb.name (fun hname => hne ?_) hloc
      rw [place, place, show name = name' from hname]
    | some dir' =>
      intro hloc'
      exact location_ne_of_beside (hb.package dir' rfl) hb.name ha.name hloc' hloc
  | some dir =>
    cases package' with
    | none => exact location_ne_of_beside (ha.package dir rfl) ha.name hb.name hloc
    | some dir' =>
      by_cases hdir : dir = dir'
      · subst hdir
        refine location_ne_of_name_ne ha.name hb.name (fun hname => hne ?_) hloc
        rw [place, place, show name = name' from hname]
      · exact location_ne_of_dir_ne (ha.package dir rfl) ha.name (hb.package dir' rfl) hb.name hdir
          hloc

/-- The segments of a path behind those of the root. -/
theorem exists_path_eq (root : String) : ∃ start, ∀ a : Artifact, a.IsPlaced →
    ∃ tail, a.path root = start ++ tail ∧ segments tail = a.package.toList ++ [a.name] := by
  obtain ⟨start, hstart⟩ := exists_join_eq root
  refine ⟨start, fun a ha => ?_⟩
  obtain ⟨package, name, text⟩ := a
  cases package with
  | none => exact ⟨name, hstart name ha.name, segments_of_whole ha.name.whole⟩
  | some dir =>
    have hdir : IsSegment dir := ha.package dir rfl
    refine ⟨dir ++ "/" ++ name, ?_, ?_⟩
    · show join (join root dir) name = _
      rw [hstart dir hdir, join_append hdir ha.name]
    · rw [segments_append_slash, segments_of_whole hdir.whole, segments_of_whole ha.name.whole]
      rfl

/-- Two places have different paths. -/
theorem path_eq_iff (ha : a.IsPlaced) (hb : b.IsPlaced) :
    a.path root = b.path root ↔ a.place = b.place := by
  refine ⟨fun h => ?_, path_eq_of_place_eq⟩
  obtain ⟨start, hstart⟩ := exists_path_eq root
  obtain ⟨tail, hpath, htail⟩ := hstart a ha
  obtain ⟨tail', hpath', htail'⟩ := hstart b hb
  obtain rfl : tail = tail' := by
    rw [hpath, hpath'] at h
    simpa [← String.toList_inj] using h
  obtain ⟨hpackage, hname⟩ := List.append_inj' (htail.symm.trans htail') rfl
  have hpackages := congrArg List.head? hpackage
  rw [Option.head?_toList, Option.head?_toList] at hpackages
  exact Prod.ext hpackages (List.singleton_inj.mp hname)

end Artifact

/-! ## Runs -/

/-- A run that writes artifacts one after another. -/
inductive Writes (root : String) : List Artifact → FileTree → FileTree → Prop
  | nil (fs : FileTree) : Writes root [] fs fs
  | cons {a : Artifact} {rest : List Artifact} {fs middle fs' : FileTree} :
    (writeOutput (a.dir root) a.name a.text).on fs = (.ok (a.path root), middle) →
      Writes root rest middle fs' → Writes root (a :: rest) fs fs'

/-- The artifact that is written to a place last. -/
def lastAt (place : Option String × String) (as : List Artifact) : Option Artifact :=
  (as.filter (·.place = place)).getLast?

/-- The path of an artifact holds what was written to its place last. -/
def Holds (root : String) (as : List Artifact) (fs : FileTree) : Prop :=
  ∀ a ∈ as, ∃ b, lastAt a.place as = some b ∧ fs.read (a.path root) = .ok b.text

variable {root dir name text path : String} {a : Artifact} {as bs : List Artifact}
  {fs middle fs' : FileTree}

theorem Writes.append (h : Writes root as fs middle) (hrest : Writes root bs middle fs') :
    Writes root (as ++ bs) fs fs' := by
  induction h with
  | nil => exact hrest
  | cons hfirst _ ih => exact .cons hfirst (ih hrest)

theorem writeOutput_eq_ok (h : (writeOutput dir name text).on fs = (.ok path, fs')) :
    checkName name = .ok () ∧ path = join dir name ∧ fs'.read path = .ok text := by
  unfold writeOutput at h
  obtain ⟨_, _, hcheck, h⟩ := on_bind_eq_ok.mp h
  obtain ⟨_, _, _, h⟩ := on_bind_eq_ok.mp h
  obtain ⟨_, _, hwrite, h⟩ := on_bind_eq_ok.mp h
  rw [on_ofExcept] at hcheck
  cases h
  exact ⟨congrArg Prod.fst hcheck, rfl, read_write (on_write_eq_ok.mp hwrite)⟩

/-- The names of what was written are fit for files of a directory. -/
theorem Writes.isPlaced (h : Writes root as fs fs') (hproper : ∀ a ∈ as, a.IsProper) :
    ∀ a ∈ as, a.IsPlaced := by
  induction h with
  | nil => simp
  | cons hfirst _ ih =>
    obtain ⟨ha, hrest⟩ := List.forall_mem_cons.mp hproper
    obtain ⟨hname, _⟩ := writeOutput_eq_ok hfirst
    exact List.forall_mem_cons.mpr
      ⟨⟨ha.package, isSegment_of_checkName hname ha.name⟩, ih hrest⟩

theorem lastAt_concat (place : Option String × String) :
    lastAt place (as ++ [a]) = if a.place = place then some a else lastAt place as := by
  unfold lastAt
  rw [List.filter_append]
  by_cases h : a.place = place
  · simp [h]
  · simp [h]

/-- Writing one artifact more. -/
theorem holds_concat (hholds : Holds root as fs) (hplaced : ∀ b ∈ as ++ [a], b.IsPlaced)
    (h : (writeOutput (a.dir root) a.name a.text).on fs = (.ok path, fs')) :
    Holds root (as ++ [a]) fs' := by
  obtain ⟨_, rfl, hread⟩ := writeOutput_eq_ok h
  have ha : a.IsPlaced := hplaced a (by simp)
  intro b hb
  rw [lastAt_concat]
  by_cases hplace : a.place = b.place
  · refine ⟨a, if_pos hplace, ?_⟩
    rw [← Artifact.path_eq_of_place_eq hplace]
    exact hread
  · have hmem : b ∈ as := by
      rcases List.mem_append.mp hb with hb | hb
      · exact hb
      · cases List.mem_singleton.mp hb
        exact absurd rfl hplace
    obtain ⟨c, hlast, hheld⟩ := hholds b hmem
    refine ⟨c, by rw [if_neg hplace, hlast], ?_⟩
    have hsafe : Safe (fun fs => fs.read (b.path root) = .ok c.text)
        (writeOutput (a.dir root) a.name a.text) :=
      safe_writeOutput fun _ _ _ hloc =>
        Artifact.location_ne (hplaced b hb) ha (Ne.symm hplace) hloc
    have hkept := hsafe.keeps fs hheld
    rwa [h] at hkept

/-- After a run, every path holds what the run wrote to its place last. -/
theorem Writes.holds (h : Writes root as fs fs') (hplaced : ∀ a ∈ as, a.IsPlaced) :
    Holds root as fs' := by
  have hrun : ∀ written, Holds root written fs → (∀ a ∈ written, a.IsPlaced) →
      Holds root (written ++ as) fs' := by
    induction h with
    | nil =>
      intro written hwritten _
      rwa [List.append_nil]
    | @cons a rest fs middle fs' hfirst _ ih =>
      intro written hwritten hwrittenPlaced
      obtain ⟨ha, hrest⟩ := List.forall_mem_cons.mp hplaced
      have hall : ∀ b ∈ written ++ [a], b.IsPlaced :=
        List.forall_mem_append.mpr ⟨hwrittenPlaced, List.forall_mem_singleton.mpr ha⟩
      rw [List.append_cons]
      exact ih hrest _ (holds_concat hwritten hall hfirst) hall
  exact hrun [] (by simp [Holds]) (by simp)

/-! ## Artifacts that stay -/

/-- What was written stays: the paths are different, each is in its own directory under the root,
and each holds the text that was made for it. -/
structure Keeps (root : String) (as : List Artifact) (paths : List String) (fs : FileTree) :
    Prop where
  written : paths = as.map (·.path root)
  apart : paths.Nodup
  placed : ∀ a ∈ as, a.IsPlaced
  holds : ∀ a ∈ as, fs.read (a.path root) = .ok a.text

/-- One artifact takes the place of another, and everything else stays. -/
structure Replaces (root : String) (a : Artifact) (as : List Artifact) (paths : List String)
    (fs : FileTree) : Prop where
  written : paths = as.map (·.path root)
  repeated : ¬ paths.Nodup
  placed : ∀ a ∈ as, a.IsPlaced
  holds : ∀ b ∈ as, fs.read (b.path root) = .ok (if b.place = a.place then a.text else b.text)

theorem nodup_paths_iff (h : ∀ a ∈ as, a.IsPlaced) :
    (as.map (·.path root)).Nodup ↔ (as.map (·.place)).Nodup := by
  rw [List.Nodup, List.Nodup, List.pairwise_map, List.pairwise_map]
  exact List.Pairwise.iff_of_mem fun ha hb => not_congr (Artifact.path_eq_iff (h _ ha) (h _ hb))

/-- An artifact that shares its place with none is the last one there. -/
theorem lastAt_of_nodup (hnodup : (as.map (·.place)).Nodup) (ha : a ∈ as) :
    lastAt a.place as = some a := by
  rw [lastAt, filter_eq_singleton hnodup ha (by simp)]
  rfl

theorem keeps_of_writes (h : Writes root as fs fs') (hplaced : ∀ a ∈ as, a.IsPlaced)
    (hnodup : (as.map (·.place)).Nodup) : Keeps root as (as.map (·.path root)) fs' := by
  refine ⟨rfl, (nodup_paths_iff hplaced).mpr hnodup, hplaced, fun a ha => ?_⟩
  obtain ⟨b, hlast, hread⟩ := h.holds hplaced a ha
  rw [lastAt_of_nodup hnodup ha] at hlast
  rw [hread, Option.some.inj hlast]

/-- The artifact that comes behind all others of its place is the last one. -/
theorem lastAt_append_cons (h : a.place ∉ bs.map (·.place)) :
    lastAt a.place (as ++ a :: bs) = some a := by
  have hnone : bs.filter (·.place = a.place) = [] := by
    refine List.filter_eq_nil_iff.mpr fun b hb => ?_
    simpa using fun heq => h (List.mem_map.mpr ⟨b, hb, heq⟩)
  simp [lastAt, hnone]

theorem lastAt_append_cons_of_ne {place : Option String × String} (h : a.place ≠ place) :
    lastAt place (as ++ a :: bs) = lastAt place (as ++ bs) := by
  simp [lastAt, h]

/-- If all other artifacts are apart, one artifact replaces at most one of those before it. -/
theorem keeps_or_replaces (h : Writes root (as ++ a :: bs) fs fs')
    (hplaced : ∀ b ∈ as ++ a :: bs, b.IsPlaced) (hothers : ((as ++ bs).map (·.place)).Nodup)
    (hafter : a.place ∉ bs.map (·.place)) :
    (a.place ∉ as.map (·.place) →
      Keeps root (as ++ a :: bs) ((as ++ a :: bs).map (·.path root)) fs') ∧
    (a.place ∈ as.map (·.place) →
      Replaces root a (as ++ a :: bs) ((as ++ a :: bs).map (·.path root)) fs') := by
  have hnodup : ((as ++ a :: bs).map (·.place)).Nodup ↔ a.place ∉ as.map (·.place) := by
    rw [List.map_append, List.map_cons, List.nodup_middle, ← List.map_append, List.nodup_cons,
      and_iff_left hothers, List.map_append, List.mem_append, or_iff_left hafter]
  refine ⟨fun hapart => keeps_of_writes h hplaced (hnodup.mpr hapart), fun hrepeated => ?_⟩
  refine ⟨rfl, ?_, hplaced, fun b hb => ?_⟩
  · rw [nodup_paths_iff hplaced, hnodup]
    exact not_not_intro hrepeated
  · obtain ⟨c, hlast, hread⟩ := h.holds hplaced b hb
    rw [hread]
    by_cases hplace : b.place = a.place
    · rw [hplace, lastAt_append_cons hafter] at hlast
      rw [if_pos hplace, Option.some.inj hlast]
    · rw [lastAt_append_cons_of_ne (Ne.symm hplace)] at hlast
      have hmem : b ∈ as ++ bs := by
        rcases List.mem_append.mp hb with hb | hb
        · exact List.mem_append_left _ hb
        · rcases List.mem_cons.mp hb with rfl | hb
          · exact absurd rfl hplace
          · exact List.mem_append_right _ hb
      rw [lastAt_of_nodup hothers hmem] at hlast
      rw [if_neg hplace, Option.some.inj hlast]

end Project

end Tablewright
