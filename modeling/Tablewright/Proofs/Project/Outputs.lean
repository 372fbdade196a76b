import Tablewright.Proofs.Project.Artifacts
import Tablewright.Proofs.Project.Load
import Tablewright.Proofs.Schema.Push

/-! What is left of the files that are generated for tables. Names of tables keep their files apart,
but a table can be named as the registry of the entities, whose file then takes the place of the
entity. -/

namespace Tablewright.Project

open Files FileTree Attempt

namespace Artifact

/-- A source file in the directory of its package. -/
def ofSource (package stem : String) (file : Code.SourceFile) : Artifact :=
  ⟨some package, sourceName stem, file.render⟩

def schema (ts : Tables) : Artifact := ⟨some schemaDir, Tables.storedName, ts.toYaml⟩

def registry (ts : Tables) (target : Target) : Artifact :=
  .ofSource entityPackage registryStem
    (Entity.registrySource (ts.toList.map Entity.ofTable) target)

def report (ts : Tables) : Artifact := ⟨none, reportName, Report.render ts⟩

end Artifact

/-- One source file for each table, named after it, in the directory of the package. -/
def AreSources (package : String) (IsSource : Table → Code.SourceFile → Prop)
    (tables : List Table) (as : List Artifact) : Prop :=
  List.Forall₂ (fun t a => ∃ file, IsSource t file ∧ a = .ofSource package t.name file) tables as

def AreEntities (target : Target) (ts : Tables) (as : List Artifact) : Prop :=
  AreSources entityPackage (fun t file => file = (Entity.ofTable t).source target) ts.toList as

def AreDaos (target : Target) (ts : Tables) (as : List Artifact) : Prop :=
  AreSources daoPackage (fun t file => ∃ d, Dao.ofTable t = .ok d ∧ file = d.source target)
    ts.toList as

def AreModels (target : Target) (ts : Tables) (as : List Artifact) : Prop :=
  AreSources modelPackage (fun t file => ∃ m, Model.ofTable t = .ok m ∧ file = m.source target)
    ts.toList as

/-- The entities with their registry behind them, and what is written after it. -/
def withRegistry (ts : Tables) (target : Target) (before after : List Artifact) : List Artifact :=
  before ++ .registry ts target :: after

/-- Everything that is generated from tables. -/
def allOutputs (ts : Tables) (target : Target) (entities daos models : List Artifact) :
    List Artifact :=
  withRegistry ts target (.schema ts :: entities) (daos ++ models ++ [.report ts])

variable {root package : String} {target : Target} {ts : Tables} {tables : List Table}
  {IsSource : Table → Code.SourceFile → Prop} {as : List Artifact} {paths : List String}
  {fs fs' : FileTree}

/-! ## Places of sources -/

theorem sourceName_injective : Function.Injective sourceName := by
  intro a b h
  simpa [sourceName, ← String.toList_inj] using h

theorem AreSources.places (h : AreSources package IsSource tables as) :
    as.map (·.place) = tables.map fun t => (some package, sourceName t.name) := by
  induction h with
  | nil => rfl
  | cons hfirst _ ih =>
    obtain ⟨file, _, rfl⟩ := hfirst
    rw [List.map_cons, List.map_cons, ih]
    rfl

/-- A source lies in the directory of the package and has the name of a table. -/
theorem AreSources.of_mem (h : AreSources package IsSource tables as) {a : Artifact} (ha : a ∈ as) :
    a.package = some package ∧ ∃ t ∈ tables, a.name = sourceName t.name := by
  have hplace : a.place ∈ as.map (·.place) := List.mem_map_of_mem ha
  rw [h.places] at hplace
  obtain ⟨t, ht, heq⟩ := List.mem_map.mp hplace
  obtain ⟨hpackage, hname⟩ := Prod.ext_iff.mp heq
  exact ⟨hpackage.symm, t, ht, hname.symm⟩

theorem AreSources.nodup_places (h : AreSources package IsSource ts.toList as) (hd : ts.Distinct) :
    (as.map (·.place)).Nodup := by
  rw [h.places]
  have hnames : ts.toList.map (fun t => (some package, sourceName t.name)) =
      ts.names.map fun name => (some package, sourceName name) := by
    rw [Tables.names, List.map_map]
    rfl
  rw [hnames]
  exact hd.map fun a b heq => sourceName_injective (Prod.ext_iff.mp heq).2

/-! ## Runs of the writers -/

theorem exists_writes {step : Table → Attempt (StateM FileTree) String}
    (hstep : ∀ t fs path fs', (step t).on fs = (.ok path, fs') → ∃ file, IsSource t file ∧
      (writeSource (join root package) t.name file).on fs = (.ok path, fs'))
    (h : (tables.mapM step).on fs = (.ok paths, fs')) :
    ∃ as, AreSources package IsSource tables as ∧ paths = as.map (·.path root) ∧
      Writes root as fs fs' := by
  induction tables generalizing fs paths with
  | nil =>
    cases h
    exact ⟨[], .nil, rfl, .nil _⟩
  | cons t rest ih =>
    rw [List.mapM_cons] at h
    obtain ⟨path, middle, hfirst, h⟩ := on_bind_eq_ok.mp h
    obtain ⟨others, last, hrest, h⟩ := on_bind_eq_ok.mp h
    cases h
    obtain ⟨file, hfile, hwrite⟩ := hstep _ _ _ _ hfirst
    obtain ⟨as, hsources, rfl, hwrites⟩ := ih hrest
    obtain ⟨_, rfl, _⟩ := writeOutput_eq_ok hwrite
    exact ⟨.ofSource package t.name file :: as, .cons ⟨file, hfile, rfl⟩ hsources, rfl,
      .cons hwrite hwrites⟩

/-- A source that is generated first, if the table has what it is generated from. -/
theorem source_of_bind {α : Type} {generate : Table → Except SchemaError α}
    {render : α → Code.SourceFile} {t : Table} {path : String}
    (h : (Attempt.ofSchema (generate t) >>= fun spec =>
      writeSource (join root package) t.name (render spec)).on fs = (.ok path, fs')) :
    ∃ file, (∃ spec, generate t = .ok spec ∧ file = render spec) ∧
      (writeSource (join root package) t.name file).on fs = (.ok path, fs') := by
  obtain ⟨spec, middle, hspec, hwrite⟩ := on_bind_eq_ok.mp h
  rw [Attempt.ofSchema, on_ofExcept] at hspec
  cases hgenerate : generate t with
  | error e =>
    rw [hgenerate] at hspec
    cases hspec
  | ok generated =>
    rw [hgenerate] at hspec
    cases hspec
    exact ⟨_, ⟨_, rfl, rfl⟩, hwrite⟩

theorem writes_writeDaos (h : (writeDaos root ts target).on fs = (.ok paths, fs')) :
    ∃ as, AreDaos target ts as ∧ paths = as.map (·.path root) ∧ Writes root as fs fs' :=
  exists_writes (fun _ _ _ _ => source_of_bind) h

theorem writes_writeModels (h : (writeModels root ts target).on fs = (.ok paths, fs')) :
    ∃ as, AreModels target ts as ∧ paths = as.map (·.path root) ∧ Writes root as fs fs' :=
  exists_writes (fun _ _ _ _ => source_of_bind) h

theorem writes_writeEntities (h : (writeEntities root ts target).on fs = (.ok paths, fs')) :
    ∃ as, AreEntities target ts as ∧
      paths = (withRegistry ts target as []).map (·.path root) ∧
      Writes root (withRegistry ts target as []) fs fs' := by
  unfold writeEntities at h
  obtain ⟨written, middle, hentities, h⟩ := on_bind_eq_ok.mp h
  obtain ⟨path, last, hregistry, h⟩ := on_bind_eq_ok.mp h
  cases h
  rw [List.mapM_map] at hentities
  have hexists : ∃ as, AreEntities target ts as ∧ written = as.map (·.path root) ∧
      Writes root as fs middle := exists_writes (fun _ _ _ _ hstep => ⟨_, rfl, hstep⟩) hentities
  obtain ⟨as, hsources, rfl, hwrites⟩ := hexists
  obtain ⟨_, rfl, _⟩ := writeOutput_eq_ok hregistry
  refine ⟨as, hsources, ?_, hwrites.append (.cons hregistry (.nil _))⟩
  simp [withRegistry, Artifact.path, Artifact.dir, Artifact.registry, Artifact.ofSource]

/-- Storing the schema is writing it. -/
theorem writeSchema_eq (root : String) (ts : Tables) :
    writeSchema (m := StateM FileTree) root ts =
      writeOutput (join root schemaDir) Tables.storedName ts.toYaml := by
  have hname : (MonadExcept.ofExcept (checkName Tables.storedName) :
      Attempt (StateM FileTree) Unit) = pure () := rfl
  unfold writeSchema writeOutput Tables.save
  rw [hname, pure_bind]

theorem writes_writeAll (h : (writeAll root ts target).on fs = (.ok paths, fs')) :
    ∃ entities daos models, AreEntities target ts entities ∧ AreDaos target ts daos ∧
      AreModels target ts models ∧
      paths = (allOutputs ts target entities daos models).map (·.path root) ∧
      Writes root (allOutputs ts target entities daos models) fs fs' := by
  unfold writeAll at h
  obtain ⟨schema, stored, hschema, h⟩ := on_bind_eq_ok.mp h
  obtain ⟨_, _, hentities, h⟩ := on_bind_eq_ok.mp h
  obtain ⟨_, _, hdaos, h⟩ := on_bind_eq_ok.mp h
  obtain ⟨_, _, hmodels, h⟩ := on_bind_eq_ok.mp h
  obtain ⟨report, _, hreport, h⟩ := on_bind_eq_ok.mp h
  cases h
  rw [writeSchema_eq] at hschema
  obtain ⟨_, rfl, _⟩ := writeOutput_eq_ok hschema
  obtain ⟨_, rfl, _⟩ := writeOutput_eq_ok hreport
  obtain ⟨entities, areEntities, rfl, entitiesWritten⟩ := writes_writeEntities hentities
  obtain ⟨daos, areDaos, rfl, daosWritten⟩ := writes_writeDaos hdaos
  obtain ⟨models, areModels, rfl, modelsWritten⟩ := writes_writeModels hmodels
  refine ⟨entities, daos, models, areEntities, areDaos, areModels, ?_, ?_⟩
  · simp [allOutputs, withRegistry, Artifact.path, Artifact.dir, Artifact.schema, Artifact.report]
  · have hreported : Writes root [.report ts] _ _ := .cons hreport (.nil _)
    have hall : Writes root (.schema ts :: _) fs fs' := .cons hschema
      (entitiesWritten.append (daosWritten.append (modelsWritten.append hreported)))
    simpa [allOutputs, withRegistry] using hall

/-! ## What is left -/

theorem AreSources.isProper (h : AreSources package IsSource tables as)
    (hpackage : IsSegment package) : ∀ a ∈ as, a.IsProper := by
  intro a ha
  obtain ⟨hdir, t, _, hname⟩ := h.of_mem ha
  refine ⟨fun p hp => ?_, hname ▸ sourceName_ne_here t.name⟩
  obtain rfl := Option.some.inj (hdir.symm.trans hp)
  exact hpackage

theorem isProper_registry (ts : Tables) (target : Target) :
    (Artifact.registry ts target).IsProper :=
  ⟨by rintro p ⟨⟩; decide, sourceName_ne_here registryStem⟩

theorem isProper_schema (ts : Tables) : (Artifact.schema ts).IsProper :=
  ⟨by rintro p ⟨⟩; exact isSegment_schemaDir, isSegment_storedName.notHere⟩

theorem isProper_report (ts : Tables) : (Artifact.report ts).IsProper :=
  ⟨by rintro p ⟨⟩, show reportName ≠ "." by decide⟩

/-- Artifacts of different directories do not share places. -/
theorem nodup_places_append {bs : List Artifact} (has : (as.map (·.place)).Nodup)
    (hbs : (bs.map (·.place)).Nodup) (hne : ∀ a ∈ as, ∀ b ∈ bs, a.package ≠ b.package) :
    ((as ++ bs).map (·.place)).Nodup := by
  rw [List.map_append]
  refine List.nodup_append.mpr ⟨has, hbs, ?_⟩
  intro place hplace place' hplace' heq
  obtain ⟨a, ha, rfl⟩ := List.mem_map.mp hplace
  obtain ⟨b, hb, rfl⟩ := List.mem_map.mp hplace'
  exact hne a ha b hb (Prod.ext_iff.mp heq).1

theorem place_notMem_of_package_ne {a : Artifact} (h : ∀ b ∈ as, a.package ≠ b.package) :
    a.place ∉ as.map (·.place) := by
  intro hmem
  obtain ⟨b, hb, heq⟩ := List.mem_map.mp hmem
  exact h b hb (Prod.ext_iff.mp heq).1.symm

/-- The registry has the place of an entity exactly if a table has its name. -/
theorem registry_mem_places_iff (h : AreEntities target ts as) :
    (Artifact.registry ts target).place ∈ as.map (·.place) ↔ registryStem ∈ ts.names := by
  rw [h.places, Tables.names, List.mem_map, List.mem_map]
  refine exists_congr fun t => and_congr_right fun _ => ?_
  constructor
  · exact fun heq => sourceName_injective (Prod.ext_iff.mp heq).2
  · exact fun hname => by rw [hname]; rfl

/-! ### Places of everything that is generated -/

/-- The directories of what is written before the registry. -/
def firstPackages : List (Option String) := [some schemaDir, some entityPackage]

/-- The directories of what is written after the registry. -/
def laterPackages : List (Option String) := [some daoPackage, some modelPackage, none]

section Places

variable {entities daos models : List Artifact}

theorem package_first (h : AreEntities target ts entities) :
    ∀ a ∈ Artifact.schema ts :: entities, a.package ∈ firstPackages := by
  refine List.forall_mem_cons.mpr ⟨List.mem_cons_self, fun a ha => ?_⟩
  rw [(AreSources.of_mem h ha).1]
  decide

theorem package_later (hdaos : AreDaos target ts daos) (hmodels : AreModels target ts models) :
    ∀ a ∈ daos ++ models ++ [.report ts], a.package ∈ laterPackages := by
  rw [List.forall_mem_append, List.forall_mem_append, List.forall_mem_singleton]
  refine ⟨⟨fun a ha => ?_, fun a ha => ?_⟩, show none ∈ laterPackages by decide⟩
  · rw [(AreSources.of_mem hdaos ha).1]
    decide
  · rw [(AreSources.of_mem hmodels ha).1]
    decide

theorem nodup_places_first (h : AreEntities target ts entities) (hd : ts.Distinct) :
    ((Artifact.schema ts :: entities).map (·.place)).Nodup := by
  rw [List.map_cons, List.nodup_cons]
  refine ⟨place_notMem_of_package_ne fun b hb => ?_, AreSources.nodup_places h hd⟩
  rw [(AreSources.of_mem h hb).1]
  exact show some schemaDir ≠ some entityPackage by decide

theorem nodup_places_later (hdaos : AreDaos target ts daos) (hmodels : AreModels target ts models)
    (hd : ts.Distinct) : ((daos ++ models ++ [Artifact.report ts]).map Artifact.place).Nodup := by
  have hsources : ∀ a ∈ daos, ∀ b ∈ models, a.package ≠ b.package := by
    intro a ha b hb
    rw [(AreSources.of_mem hdaos ha).1, (AreSources.of_mem hmodels hb).1]
    decide
  have hreport : ∀ a ∈ daos ++ models, ∀ b ∈ [Artifact.report ts], a.package ≠ b.package := by
    simp only [List.forall_mem_singleton, List.forall_mem_append]
    refine ⟨fun a ha => ?_, fun a ha => ?_⟩
    · rw [(AreSources.of_mem hdaos ha).1]
      exact show some daoPackage ≠ none by decide
    · rw [(AreSources.of_mem hmodels ha).1]
      exact show some modelPackage ≠ none by decide
  exact nodup_places_append (nodup_places_append (AreSources.nodup_places hdaos hd)
    (AreSources.nodup_places hmodels hd) hsources) (by simp) hreport

end Places

/-! ### The writers -/

/-- The paths of a run and the tree behind it are those of artifacts that stay. If a table is named
as the registry, the registry replaces the entity of that table. -/
structure KeepsBesideRegistry (root : String) (ts : Tables) (target : Target) (as : List Artifact)
    (paths : List String) (fs : FileTree) : Prop where
  keeps : registryStem ∉ ts.names → Keeps root as paths fs
  replaces : registryStem ∈ ts.names → Replaces root (.registry ts target) as paths fs

theorem keeps_writeDaos (hd : ts.Distinct)
    (h : (writeDaos root ts target).on fs = (.ok paths, fs')) :
    ∃ daos, AreDaos target ts daos ∧ Keeps root daos paths fs' := by
  obtain ⟨daos, hdaos, rfl, hwrites⟩ := writes_writeDaos h
  have hplaced := hwrites.isPlaced (AreSources.isProper hdaos (by decide))
  exact ⟨daos, hdaos, keeps_of_writes hwrites hplaced (AreSources.nodup_places hdaos hd)⟩

theorem keeps_writeModels (hd : ts.Distinct)
    (h : (writeModels root ts target).on fs = (.ok paths, fs')) :
    ∃ models, AreModels target ts models ∧ Keeps root models paths fs' := by
  obtain ⟨models, hmodels, rfl, hwrites⟩ := writes_writeModels h
  have hplaced := hwrites.isPlaced (AreSources.isProper hmodels (by decide))
  exact ⟨models, hmodels, keeps_of_writes hwrites hplaced (AreSources.nodup_places hmodels hd)⟩

theorem keeps_writeEntities (hd : ts.Distinct)
    (h : (writeEntities root ts target).on fs = (.ok paths, fs')) :
    ∃ entities, AreEntities target ts entities ∧
      KeepsBesideRegistry root ts target (withRegistry ts target entities []) paths fs' := by
  obtain ⟨entities, hentities, rfl, hwrites⟩ := writes_writeEntities h
  have hproper : ∀ a ∈ withRegistry ts target entities [], a.IsProper := by
    rw [withRegistry, List.forall_mem_append, List.forall_mem_singleton]
    exact ⟨AreSources.isProper hentities (by decide), isProper_registry ts target⟩
  have hothers : ((entities ++ []).map Artifact.place).Nodup := by
    rw [List.append_nil]
    exact AreSources.nodup_places hentities hd
  obtain ⟨hkeeps, hreplaces⟩ :=
    keeps_or_replaces hwrites (hwrites.isPlaced hproper) hothers List.not_mem_nil
  rw [registry_mem_places_iff hentities] at hkeeps hreplaces
  exact ⟨entities, hentities, hkeeps, hreplaces⟩

theorem keeps_writeAll (hd : ts.Distinct)
    (h : (writeAll root ts target).on fs = (.ok paths, fs')) :
    ∃ entities daos models, AreEntities target ts entities ∧ AreDaos target ts daos ∧
      AreModels target ts models ∧
      KeepsBesideRegistry root ts target (allOutputs ts target entities daos models) paths fs' := by
  obtain ⟨entities, daos, models, hentities, hdaos, hmodels, rfl, hwrites⟩ := writes_writeAll h
  have hproper : ∀ a ∈ allOutputs ts target entities daos models, a.IsProper := by
    simp only [allOutputs, withRegistry, List.forall_mem_append, List.forall_mem_cons]
    exact ⟨⟨isProper_schema ts, AreSources.isProper hentities (by decide)⟩,
      isProper_registry ts target, ⟨AreSources.isProper hdaos (by decide),
        AreSources.isProper hmodels (by decide)⟩, isProper_report ts, by simp⟩
  have hfirst := package_first hentities
  have hlater := package_later hdaos hmodels
  have hothers := nodup_places_append (nodup_places_first hentities hd)
    (nodup_places_later hdaos hmodels hd) fun a ha b hb heq => by
      have hapart : ∀ p ∈ firstPackages, p ∉ laterPackages := by decide
      exact hapart _ (hfirst a ha) (heq ▸ hlater b hb)
  have hafter : (Artifact.registry ts target).place ∉
      (daos ++ models ++ [Artifact.report ts]).map Artifact.place :=
    place_notMem_of_package_ne fun b hb heq => by
      have hapart : some entityPackage ∉ laterPackages := by decide
      exact hapart (heq ▸ hlater b hb : (Artifact.registry ts target).package ∈ laterPackages)
  obtain ⟨hkeeps, hreplaces⟩ :=
    keeps_or_replaces hwrites (hwrites.isPlaced hproper) hothers hafter
  have hschema : (Artifact.registry ts target).place ≠ (Artifact.schema ts).place :=
    fun heq => absurd (Prod.ext_iff.mp heq).1 (show some entityPackage ≠ some schemaDir by decide)
  rw [List.map_cons, List.mem_cons, or_iff_right hschema, registry_mem_places_iff hentities]
    at hkeeps hreplaces
  exact ⟨entities, daos, models, hentities, hdaos, hmodels, hkeeps, hreplaces⟩

/-- What is written for tables with distinct names stays, by whichever writer, if it succeeds: each
path of a run is different from the others, is in its own directory under the root and holds what
was made for it. Only the registry can take the place of something else. It does so for a table of
its name, whose entity is lost. -/
theorem writers_keep {ts : Tables} (hd : ts.Distinct) (root : String) (target : Target)
    (fs fs' : FileTree) (paths : List String) :
    ((writeEntities root ts target).on fs = (.ok paths, fs') →
      ∃ entities, AreEntities target ts entities ∧
        KeepsBesideRegistry root ts target (withRegistry ts target entities []) paths fs') ∧
    ((writeDaos root ts target).on fs = (.ok paths, fs') →
      ∃ daos, AreDaos target ts daos ∧ Keeps root daos paths fs') ∧
    ((writeModels root ts target).on fs = (.ok paths, fs') →
      ∃ models, AreModels target ts models ∧ Keeps root models paths fs') ∧
    ((writeAll root ts target).on fs = (.ok paths, fs') →
      ∃ entities daos models, AreEntities target ts entities ∧ AreDaos target ts daos ∧
        AreModels target ts models ∧
        KeepsBesideRegistry root ts target (allOutputs ts target entities daos models) paths fs') :=
  ⟨keeps_writeEntities hd, keeps_writeDaos hd, keeps_writeModels hd, keeps_writeAll hd⟩

theorem exists_on_eq {α : Type} {x : Attempt (StateM FileTree) α} {answer : Except Error α}
    (h : (x.on fs).1 = answer) : ∃ fs', x.on fs = (answer, fs') :=
  ⟨(x.on fs).2, Prod.ext h rfl⟩

/-- The paths of everything that is generated for items. -/
def itemPaths : List String := [
  "out/schema/tables.yaml", "out/entity/items.go", "out/entity/structables.go", "out/dao/items.go",
  "out/model/items.go", "out/report.md"]

/-- Everything that is generated for items is kept. -/
theorem items_keep :
    ∃ ts fs' entities daos models, ts.toList = [Tables.itemsTable] ∧ ts.Distinct ∧
      registryStem ∉ ts.names ∧
      (writeAll "out" ts (.ofModule "example")).on .empty = (.ok itemPaths, fs') ∧
      Keeps "out" (allOutputs ts (.ofModule "example") entities daos models) itemPaths fs' := by
  have hd : Tables.Distinct ⟨[Tables.itemsTable]⟩ := by decide
  have hother : registryStem ∉ Tables.names ⟨[Tables.itemsTable]⟩ := by decide
  have hwritten : ((writeAll "out" ⟨[Tables.itemsTable]⟩ (.ofModule "example")).on .empty).1 =
      .ok itemPaths := Checks.eq_ok_of_toOption (by decide +kernel)
  obtain ⟨fs', hrun⟩ := exists_on_eq hwritten
  obtain ⟨_, _, _, hall⟩ := writers_keep hd "out" (.ofModule "example") .empty fs' itemPaths
  obtain ⟨entities, daos, models, _, _, _, hkeeps⟩ := hall hrun
  exact ⟨_, fs', entities, daos, models, rfl, hd, hother, hrun, hkeeps.keeps hother⟩

/-- A table with the name of the registry. -/
def structablesTable : Table := { Tables.itemsTable with name := "structables" }

/-- Entity and registry of the table are written to one path, which holds the registry. -/
theorem structables_replaced :
    Table.ofSql "CREATE TABLE structables (id INT NOT NULL, PRIMARY KEY (id));" =
      .ok structablesTable ∧
    ∃ fs', (writeEntities "out" ⟨[structablesTable]⟩ (.ofModule "example")).on .empty =
        (.ok ["out/entity/structables.go", "out/entity/structables.go"], fs') ∧
      fs'.read "out/entity/structables.go" = .ok
        (Entity.registrySource [Entity.ofTable structablesTable] (.ofModule "example")).render := by
  have hd : Tables.Distinct ⟨[structablesTable]⟩ := by decide
  have hregistry : registryStem ∈ Tables.names ⟨[structablesTable]⟩ := by decide
  have hwritten : ((writeEntities "out" ⟨[structablesTable]⟩ (.ofModule "example")).on .empty).1 =
      .ok ["out/entity/structables.go", "out/entity/structables.go"] :=
    Checks.eq_ok_of_toOption (by decide +kernel)
  obtain ⟨fs', hrun⟩ := exists_on_eq hwritten
  obtain ⟨entities, hentities, hkeeps⟩ := keeps_writeEntities hd hrun
  have hheld := (hkeeps.replaces hregistry).holds
    (.registry ⟨[structablesTable]⟩ (.ofModule "example"))
    (List.mem_append_right _ List.mem_cons_self)
  rw [if_pos rfl] at hheld
  exact ⟨Checks.eq_ok_of_toOption (by decide +kernel), fs', hrun, hheld⟩

end Tablewright.Project
