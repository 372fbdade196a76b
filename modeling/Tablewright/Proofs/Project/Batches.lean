import Tablewright.Proofs.Project.OutputNames
import Tablewright.Proofs.Project.Outputs

/-! Sources are written table by table, up to the first table that none can be written for. What
is written before it stays, and nothing is written for it or for those behind it. -/

namespace Tablewright.Project

open Files FileTree Attempt

/-! ## Tables that sources can be written for -/

/-- A source can be written for the table: there is a column for its primary key, and a file may
have its name. -/
structure IsReady (t : Table) : Prop where
  key : ∃ c, t.primaryKeyColumn? = some c
  name : IsFileName (sourceName t.name)

/-- What a table that is not ready is blamed for. A missing key is found before a name that no file
may have. -/
inductive Blames (t : Table) : Error → Prop
  | key : t.primaryKeyColumn? = none → Blames t (.schema (.missingPrimaryKey t.name))
  | name {c : Column} {fault : NameFault} : t.primaryKeyColumn? = some c →
    nameFault? (sourceName t.name) = some fault →
    Blames t (.outputName (sourceName t.name) fault)

theorem Blames.not_isReady {t : Table} {e : Error} (h : Blames t e) : ¬ IsReady t := by
  rintro ⟨⟨c, hkey⟩, hname⟩
  cases h with
  | key hmissing =>
    rw [hkey] at hmissing
    cases hmissing
  | name _ hfault =>
    rw [nameFault?_eq_none_iff.mpr (.inl hname)] at hfault
    cases hfault

theorem isReady_or_blames (t : Table) : IsReady t ∨ ∃ e, Blames t e := by
  cases hkey : t.primaryKeyColumn? with
  | none => exact .inr ⟨_, .key hkey⟩
  | some c =>
    by_cases hname : IsFileName (sourceName t.name)
    · exact .inl ⟨⟨c, hkey⟩, hname⟩
    · obtain ⟨fault, hfault⟩ := exists_nameFault? hname (sourceName_ne_here t.name)
      exact .inr ⟨_, .name hkey hfault⟩

/-- How a run through tables ends. `Done` says what has been done for the tables before the first
that is not ready. -/
inductive StopsAtFirst (path : Table → String) (Done : List Table → FileTree → Prop)
    (tables : List Table) : Except Error (List String) × FileTree → Prop
  | finished {fs' : FileTree} : (∀ t ∈ tables, IsReady t) → Done tables fs' →
    StopsAtFirst path Done tables (.ok (tables.map path), fs')
  | stopped {before after : List Table} {t : Table} {e : Error} {fs' : FileTree} :
    tables = before ++ t :: after → (∀ b ∈ before, IsReady b) → ¬ IsReady t → Blames t e →
    Done before fs' → StopsAtFirst path Done tables (.error e, fs')

variable {path : Table → String} {Done Done' : List Table → FileTree → Prop} {t : Table}
  {tables : List Table} {r : Except Error (List String) × FileTree}

/-- What is done for a table first is done before what is done for the tables behind it. -/
theorem StopsAtFirst.cons (ht : IsReady t) (h : StopsAtFirst path Done tables r)
    (hdone : ∀ done fs', Done done fs' → Done' (t :: done) fs') :
    StopsAtFirst path Done' (t :: tables) (r.1.map (path t :: ·), r.2) := by
  cases h with
  | finished hready h => exact .finished (List.forall_mem_cons.mpr ⟨ht, hready⟩) (hdone _ _ h)
  | stopped htables hready hnot hblames h =>
    exact .stopped (congrArg (t :: ·) htables) (List.forall_mem_cons.mpr ⟨ht, hready⟩) hnot hblames
      (hdone _ _ h)

theorem StopsAtFirst.mono (h : StopsAtFirst path Done tables r)
    (hdone : ∀ done fs', done <+: tables → Done done fs' → Done' done fs') :
    StopsAtFirst path Done' tables r := by
  cases h with
  | finished hready h => exact .finished hready (hdone _ _ (List.prefix_refl _) h)
  | stopped htables hready hnot hblames h =>
    exact .stopped htables hready hnot hblames (hdone _ _ ⟨_, htables.symm⟩ h)

/-! ## Files that are written and files that are not -/

/-- The file of a table in a package under the root. -/
def sourcePath (root package : String) (t : Table) : String :=
  join (join root package) (sourceName t.name)

theorem path_ofSource (root package : String) (t : Table) (file : Code.SourceFile) :
    (Artifact.ofSource package t.name file).path root = sourcePath root package t := rfl

/-- The files of the tables hold what was rendered for them, and no other file has changed since
`fs`. -/
structure HoldsOnly (path : Table → String) (Renders : Table → String → Prop) (fs : FileTree)
    (tables : List Table) (fs' : FileTree) : Prop where
  holds : ∀ t ∈ tables, ∃ text, Renders t text ∧ fs'.read (path t) = .ok text
  others : ∀ loc, (∀ t ∈ tables, fs'.location (path t) ≠ .ok loc) → fs'.file? loc = fs.file? loc

variable {root package : String} {as : List Artifact} {fs fs' : FileTree}

theorem Writes.keepsDirs (h : Writes root as fs fs') : fs.KeepsDirs fs' := by
  induction h with
  | nil => exact fun _ hdir => hdir
  | cons hfirst _ ih =>
    obtain ⟨made, hmade, hwrite⟩ := exists_write_of_on hfirst
    exact (keepsDirs_makeDirs hmade).trans ((keepsDirs_write hwrite).trans ih)

/-- A run changes no file but those that it writes. -/
theorem Writes.file?_eq (h : Writes root as fs fs') {loc : Location}
    (hother : ∀ a ∈ as, fs'.location (a.path root) ≠ .ok loc) : fs'.file? loc = fs.file? loc := by
  induction h with
  | nil => rfl
  | @cons a rest fs middle fs' hfirst hrest ih =>
    obtain ⟨ha, hothers⟩ := List.forall_mem_cons.mp hother
    obtain ⟨made, hmade, hwrite⟩ := exists_write_of_on hfirst
    have hkeeps : made.KeepsDirs fs' := (keepsDirs_write hwrite).trans hrest.keepsDirs
    obtain ⟨written, hwritten, hfile, rfl⟩ := write_eq_ok.mp hwrite
    have hne : loc ≠ written := by
      rintro rfl
      exact ha (hkeeps.location hwritten)
    rw [ih hothers, file?_put (ne_nil_of_ne_dir hfile), if_neg hne, file?_makeDirs hmade]

section Sources

variable {α : Type} {generate : Table → Except SchemaError α} {render : α → Code.SourceFile}

/-- The source file that is generated for the table. -/
def IsGenerated (generate : Table → Except SchemaError α) (render : α → Code.SourceFile) (t : Table)
    (file : Code.SourceFile) : Prop :=
  ∃ spec, generate t = .ok spec ∧ file = render spec

/-- The text of the source that is generated for the table. -/
def Renders (generate : Table → Except SchemaError α) (render : α → Code.SourceFile) (t : Table)
    (text : String) : Prop :=
  ∃ file, IsGenerated generate render t file ∧ text = file.render

/-- A source is generated for a table exactly if the table has a column for its primary key. -/
structure NeedsKey (generate : Table → Except SchemaError α) : Prop where
  missing : ∀ t, t.primaryKeyColumn? = none → generate t = .error (.missingPrimaryKey t.name)
  generated : ∀ t c, t.primaryKeyColumn? = some c → ∃ spec, generate t = .ok spec

/-- Distinct tables have distinct files, so what is written for one stays. -/
theorem holdsOnly_of_writes (hpackage : IsSegment package)
    (hsources : AreSources package (IsGenerated generate render) tables as)
    (hd : (tables.map (·.name)).Nodup) (h : Writes root as fs fs') :
    HoldsOnly (sourcePath root package) (Renders generate render) fs tables fs' := by
  have hplaced : ∀ a ∈ as, a.IsPlaced := h.isPlaced (hsources.isProper hpackage)
  have hdistinct : Tables.Distinct ⟨tables⟩ := hd
  have hkeeps := keeps_of_writes h hplaced (hsources.nodup_places hdistinct)
  constructor
  case holds =>
    intro t ht
    obtain ⟨_, ha, file, hfile, rfl⟩ := Checks.exists_of_forall₂ hsources.flip t ht
    have hread := hkeeps.holds _ ha
    rw [path_ofSource] at hread
    exact ⟨_, ⟨file, hfile, rfl⟩, hread⟩
  case others =>
    intro loc hloc
    refine h.file?_eq fun a ha => ?_
    obtain ⟨t, ht, _, _, rfl⟩ := Checks.exists_of_forall₂ hsources a ha
    rw [path_ofSource]
    exact hloc t ht

/-! ## The writer -/

/-- Generates the source of a table, and writes it. -/
def writeGenerated (root package : String) (generate : Table → Except SchemaError α)
    (render : α → Code.SourceFile) (t : Table) : Attempt (StateM FileTree) String := do
  let spec ← Attempt.ofSchema (generate t)
  writeSource (join root package) t.name (render spec)

theorem on_writeGenerated {spec : α} (h : generate t = .ok spec) (fs : FileTree) :
    (writeGenerated root package generate render t).on fs =
      (writeSource (join root package) t.name (render spec)).on fs := by
  rw [writeGenerated, Attempt.ofSchema, h]
  exact on_bind_of_ok (on_ofExcept _ _)

/-- Nothing is written for a table that is blamed. -/
theorem on_writeGenerated_of_blames (hgenerate : NeedsKey generate) {e : Error}
    (h : Blames t e) (fs : FileTree) :
    (writeGenerated root package generate render t).on fs = (.error e, fs) := by
  cases h with
  | key hkey =>
    rw [writeGenerated, Attempt.ofSchema, hgenerate.missing t hkey]
    exact on_bind_of_error (on_ofExcept _ _)
  | name hkey hfault =>
    obtain ⟨spec, hspec⟩ := hgenerate.generated t _ hkey
    rw [on_writeGenerated hspec]
    exact on_writeOutput_of_fault hfault fs

/-- The sources are written in the order of the tables. -/
theorem stopsAtFirst_mapM (hgenerate : NeedsKey generate)
    (htakes : ∀ t ∈ tables, IsReady t → fs.Takes (join root package) (sourceName t.name)) :
    StopsAtFirst (sourcePath root package)
      (fun done fs' =>
        ∃ as, AreSources package (IsGenerated generate render) done as ∧ Writes root as fs fs')
      tables ((tables.mapM (writeGenerated root package generate render)).on fs) := by
  induction tables generalizing fs with
  | nil => exact .finished (by simp) ⟨[], .nil, .nil fs⟩
  | cons t rest ih =>
    rw [List.mapM_cons]
    rcases isReady_or_blames t with hready | ⟨e, hblames⟩
    · obtain ⟨c, hkey⟩ := hready.key
      obtain ⟨spec, hspec⟩ := hgenerate.generated t c hkey
      obtain ⟨made, left, hmade, hwrite, hfirst⟩ := on_writeOutput_of_takes hready.name
        (htakes t List.mem_cons_self hready) (render spec).render
      have hstep : (writeGenerated root package generate render t).on fs =
          (.ok (sourcePath root package t), left) := by
        rw [on_writeGenerated hspec]
        exact hfirst
      rw [on_bind_of_ok hstep, on_bind_pure]
      have hrest := ih fun t' ht' hready' =>
        (htakes t' (List.mem_cons_of_mem t ht') hready').write hmade hwrite
      refine hrest.cons hready fun done fs' ⟨as, hsources, hwrites⟩ => ?_
      exact ⟨.ofSource package t.name (render spec) :: as,
        .cons ⟨_, ⟨spec, hspec, rfl⟩, rfl⟩ hsources, .cons hfirst hwrites⟩
    · rw [on_bind_of_error (on_writeGenerated_of_blames hgenerate hblames fs)]
      have hnone : ∀ b ∈ ([] : List Table), IsReady b := by simp
      exact .stopped rfl hnone hblames.not_isReady hblames ⟨[], .nil, .nil fs⟩

theorem batch_stopsAtFirst (hgenerate : NeedsKey generate) (hpackage : IsSegment package)
    (hd : (tables.map (·.name)).Nodup)
    (htakes : ∀ t ∈ tables, IsReady t → fs.Takes (join root package) (sourceName t.name)) :
    StopsAtFirst (sourcePath root package)
      (HoldsOnly (sourcePath root package) (Renders generate render) fs) tables
      ((tables.mapM (writeGenerated root package generate render)).on fs) := by
  refine (stopsAtFirst_mapM hgenerate htakes).mono fun done fs' hdone ⟨as, hsources, hwrites⟩ => ?_
  exact holdsOnly_of_writes hpackage hsources (hd.sublist (hdone.sublist.map _)) hwrites

end Sources

theorem needsKey_dao : NeedsKey Dao.ofTable where
  missing t hkey := by rw [Dao.ofTable, hkey]
  generated t c hkey := (Dao.exists_ofTable_iff t).mpr ⟨c, hkey⟩

theorem needsKey_model : NeedsKey Model.ofTable where
  missing t hkey := by rw [Model.ofTable, hkey]
  generated t c hkey := (Model.exists_ofTable_iff t).mpr ⟨c, hkey⟩

/-- Where the files of all ready tables can be written, the writers of DAOs and of models come to the
first table that is not ready, or to the end. They answer what that table is blamed for, or the
paths of all tables in order. The files of the tables before it hold their sources, and no other
file has changed. -/
theorem writers_stopAtFirst {ts : Tables} (hd : ts.Distinct) (root : String) (target : Target)
    (fs : FileTree) :
    ((∀ t ∈ ts.toList, IsReady t → fs.Takes (join root daoPackage) (sourceName t.name)) →
      StopsAtFirst (sourcePath root daoPackage)
        (HoldsOnly (sourcePath root daoPackage) (Renders Dao.ofTable (·.source target)) fs)
        ts.toList ((writeDaos root ts target).on fs)) ∧
    ((∀ t ∈ ts.toList, IsReady t → fs.Takes (join root modelPackage) (sourceName t.name)) →
      StopsAtFirst (sourcePath root modelPackage)
        (HoldsOnly (sourcePath root modelPackage) (Renders Model.ofTable (·.source target)) fs)
        ts.toList ((writeModels root ts target).on fs)) :=
  ⟨batch_stopsAtFirst needsKey_dao (by decide) hd, batch_stopsAtFirst needsKey_model (by decide) hd⟩

/-- Tables of which the second has neither a key nor a name for a file. -/
def unfinishedTables : Tables :=
  ⟨[Tables.itemsTable, { Tables.itemsTable with name := "a/b", columns := [] },
    { Tables.itemsTable with name := "notes" }]⟩

/-- The second table is blamed for its key, and the third one is not reached. -/
theorem unfinishedTables_stop : unfinishedTables.Distinct ∧
    (∀ t ∈ unfinishedTables.toList, IsReady t →
      FileTree.empty.Takes "out/dao" (sourceName t.name)) ∧
    ((writeDaos "out" unfinishedTables (.ofModule "example")).on .empty).1 =
      .error (.schema (.missingPrimaryKey "a/b")) ∧
    StopsAtFirst (sourcePath "out" daoPackage)
      (HoldsOnly (sourcePath "out" daoPackage)
        (Renders Dao.ofTable (·.source (.ofModule "example"))) .empty)
      unfinishedTables.toList ((writeDaos "out" unfinishedTables (.ofModule "example")).on .empty) := by
  have hd : unfinishedTables.Distinct := by decide
  have htakes : ∀ t ∈ unfinishedTables.toList, IsReady t →
      FileTree.empty.Takes "out/dao" (sourceName t.name) := by
    have hfree : ∀ name, IsSegment name → FileTree.empty.Takes "out/dao" name := fun name hname =>
      takes_iff.mpr ⟨⟨[(["out"], .dir), (["out", "dao"], .dir)]⟩, ["out", "dao", name], rfl,
        (location_join_eq_ok hname).mpr ⟨["out", "dao"], rfl, rfl, rfl⟩, by simp [get?, List.lookup_cons]⟩
    exact fun t _ hready => hfree _ hready.name.isSegment
  exact ⟨hd, htakes, Checks.eq_error_of_failure (by decide +kernel),
    (writers_stopAtFirst hd "out" (.ofModule "example") .empty).1 htakes⟩

end Tablewright.Project
