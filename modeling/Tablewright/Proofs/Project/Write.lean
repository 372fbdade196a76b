import Tablewright.Project.Write
import Tablewright.Proofs.Files.Attempt
import Tablewright.Proofs.Files.Tree

/-! Writing the files of a project. The generated files are beside the stored schema or in
directories beside its own, so writing them, or failing to, leaves the stored schema as it is. -/

namespace Tablewright.Project

open Files FileTree Attempt

variable {fs fs' : FileTree} {root dir name text : String} {ts : Tables} {target : Target}

/-! ## Names of output files -/

theorem nameFault?_of_checkName (h : checkName name = .ok ()) : nameFault? name = none := by
  unfold checkName at h
  split at h
  · assumption
  · cases h

theorem isAboutFiles_of_checkName {e : Error} (h : checkName name = .error e) :
    e.IsAboutFiles := by
  unfold checkName at h
  split at h
  · cases h
  · cases h
    trivial

theorem isSegment_of_checkName (h : checkName name = .ok ()) (hhere : name ≠ ".") :
    IsSegment name := by
  have hfault := nameFault?_of_checkName h
  refine ⟨?whole, ?named, hhere, ?notAbove⟩
  case whole =>
    unfold nameFault? at hfault
    dsimp only at hfault
    split_ifs at hfault with _ _ _ hseparator
    simp only [Bool.or_eq_true, List.contains_iff_mem, not_or] at hseparator
    exact hseparator.1
  case named =>
    rintro rfl
    revert hfault
    decide
  case notAbove =>
    rintro rfl
    revert hfault
    decide

theorem sourceName_ne_here (stem : String) : sourceName stem ≠ "." := by
  intro h
  have hlength := congrArg (·.toList.length) h
  simp [sourceName] at hlength

/-! ## The stored schema of a project -/

/-- The stored schema under the root is this text. -/
def Stores (root text : String) (fs : FileTree) : Prop :=
  fs.read (join (join root schemaDir) Tables.storedName) = .ok text

theorem isSegment_schemaDir : IsSegment schemaDir := by decide

theorem isSegment_storedName : IsSegment Tables.storedName := by decide

/-- A stored schema is what was stored. -/
theorem stores_writeSchema {path : String} (h : (writeSchema root ts).on fs = (.ok path, fs')) :
    Stores root ts.toYaml fs' := by
  unfold writeSchema Tables.save at h
  obtain ⟨_, middle, _, h⟩ := on_bind_eq_ok.mp h
  obtain ⟨_, written, hwrite, h⟩ := on_bind_eq_ok.mp h
  cases h
  exact read_write (on_write_eq_ok.mp hwrite)

/-- Writing is safe for what a path holds if what is written is elsewhere. -/
theorem safe_writeOutput {path held : String}
    (helsewhere : checkName name = .ok () → ∀ (fs : FileTree) (loc : Location),
      fs.location path = .ok loc → fs.location (join dir name) ≠ .ok loc) :
    Safe (fun fs => fs.read path = .ok held) (writeOutput dir name text) := by
  unfold writeOutput
  refine .ofExcept_bind (fun _ => isAboutFiles_of_checkName) fun _ hname => ?_
  refine .bind (.change (·.makeDirs dir) (fun _ => rfl) ?dirs) fun _ => ?_
  case dirs => exact fun _ _ hheld hdirs => read_makeDirs hdirs hheld
  refine .bind (.change (·.write (join dir name) text) (fun _ => rfl) ?write)
    fun _ => .pure _
  case write =>
    exact fun fs _ hheld hwrite => read_write_of_ne hwrite hheld (helsewhere hname fs)

theorem safe_writeSource {package schema stem : String} {file : Code.SourceFile}
    (hpackage : IsSegment package) (hne : schemaDir ≠ package) :
    Safe (Stores root schema) (writeSource (join root package) stem file) := by
  refine safe_writeOutput fun hname fs loc hloc => ?_
  exact location_ne_of_dir_ne isSegment_schemaDir isSegment_storedName hpackage
    (isSegment_of_checkName hname (sourceName_ne_here stem)) hne hloc

/-! ## The files of each mode -/

theorem safe_writeEntities (root schema : String) (ts : Tables) (target : Target) :
    Safe (Stores root schema) (writeEntities root ts target) := by
  have hsource : ∀ stem file,
      Safe (Stores root schema) (writeSource (join root entityPackage) stem file) :=
    fun _ _ => safe_writeSource (by decide) (by decide)
  unfold writeEntities
  exact .bind (.mapM fun _ _ => hsource _ _) fun _ => .bind (hsource _ _) fun _ => .pure _

/-- The tables have what the sources for them are generated from. -/
def Generates (ts : Tables) : Prop :=
  ∀ t ∈ ts.toList, (∃ d, Dao.ofTable t = .ok d) ∧ ∃ m, Model.ofTable t = .ok m

theorem safe_writeDaos (root schema : String) (target : Target) (h : Generates ts) :
    Safe (Stores root schema) (writeDaos root ts target) := by
  refine .mapM fun t ht => .ofExcept_bind ?_ fun _ _ => safe_writeSource (by decide) (by decide)
  intro e he
  obtain ⟨⟨d, hd⟩, _⟩ := h t ht
  rw [hd] at he
  cases he

theorem safe_writeModels (root schema : String) (target : Target) (h : Generates ts) :
    Safe (Stores root schema) (writeModels root ts target) := by
  refine .mapM fun t ht => .ofExcept_bind ?_ fun _ _ => safe_writeSource (by decide) (by decide)
  intro e he
  obtain ⟨_, m, hm⟩ := h t ht
  rw [hm] at he
  cases he

theorem safe_writeReport (root schema : String) (ts : Tables) :
    Safe (Stores root schema) (writeReport root ts) := by
  refine safe_writeOutput fun _ fs loc hloc => ?_
  exact location_ne_of_beside isSegment_schemaDir isSegment_storedName (by decide) hloc

end Tablewright.Project
