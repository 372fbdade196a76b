import Tablewright.Command.Run
import Tablewright.Proofs.Description
import Tablewright.Proofs.Project.Write
import Tablewright.Proofs.Schema.Distinct
import Tablewright.Proofs.Sql.KeyColumns

/-! The command in stages. The first run stores the tables that are declared, and the later ones
know only what is stored. They find the very tables that were declared: these are stored and loaded
as they are, and no mode but the first writes where they are stored. They cannot fail for the tables
either, since what sources are generated from is there in all that was declared. -/

namespace Tablewright.Command

open Project Checks Attempt

variable {α β : Type} {args : List String} {s : Settings} {fs fs' : FileTree} {ts : Tables}

/-! ## One run -/

/-- What a run gives on a file tree, and the tree that it leaves. -/
def runOn (args : List String) (fs : FileTree) : Outcome × FileTree :=
  (run args : StateM FileTree Outcome) fs

/-- The answer of what a run performs, as the program reports it. -/
def Outcome.ofAnswer : Except Error String → Outcome
  | .ok stdout => ⟨0, stdout, ""⟩
  | .error e => ⟨failureCode, "", "Error: " ++ e.message ++ "\n"⟩

theorem runOn_eq (hargs : Settings.ofArguments args = .ok s) (fs : FileTree) :
    runOn args fs = (.ofAnswer ((perform s).on fs).1, ((perform s).on fs).2) := by
  unfold runOn run
  rw [hargs]
  show (match ((perform s).on fs).1 with
    | .ok stdout => (pure ⟨0, stdout, ""⟩ : StateM FileTree Outcome)
    | .error e => pure ⟨failureCode, "", "Error: " ++ e.message ++ "\n"⟩)
      ((perform s).on fs).2 = _
  cases ((perform s).on fs).1 <;> rfl

/-- Arguments that are not understood are refused before anything is done. -/
theorem runOn_of_usage {fault : UsageFault} (hargs : Settings.ofArguments args = .error fault) :
    runOn args fs = (⟨failureCode, "", fault.message ++ "\n"⟩, fs) := by
  unfold runOn run
  rw [hargs]
  rfl

/-- A run does what an action does and prints nothing, and the action fails for its files only. -/
structure RunsAs (args : List String) (fs : FileTree) (action : Attempt (StateM FileTree) α) :
    Prop where
  run : runOn args fs = (.ofAnswer ((action.on fs).1.map fun _ => ""), (action.on fs).2)
  fails : ∀ e, (action.on fs).1 = .error e → e.IsAboutFiles

namespace RunsAs

variable {action : Attempt (StateM FileTree) α}

/-- What is made of the answer of an action does not matter. -/
theorem of_bind_pure {f : α → β} (h : RunsAs args fs (action >>= fun a => pure (f a))) :
    RunsAs args fs action := by
  obtain ⟨hrun, hfails⟩ := h
  rw [on_bind_pure] at hrun hfails
  refine ⟨hrun.trans ?_, fun e he => hfails e (map_eq_error.mpr he)⟩
  cases (action.on fs).1 <;> rfl

/-- An action succeeds if the run that does it does. -/
theorem exists_ok (h : RunsAs args fs action) (hexit : (runOn args fs).1.exitCode = 0) :
    ∃ a, action.on fs = (.ok a, (runOn args fs).2) := by
  rw [h.run] at hexit ⊢
  cases hrun : action.on fs with
  | mk answer fs' =>
    rw [hrun] at hexit
    cases answer with
    | ok a => exact ⟨a, rfl⟩
    | error e => cases hexit

theorem tree {answer : Except Error α} (h : RunsAs args fs action)
    (hrun : action.on fs = (answer, fs')) : (runOn args fs).2 = fs' := by
  rw [h.run, hrun]

end RunsAs

/-- A run that does not describe does what its mode generates. -/
theorem runsAs_generate (hargs : Settings.ofArguments args = .ok s)
    (hload : (tablesOf s).on fs = (.ok ts, fs))
    (hgenerates : (if s.describes then descriptions? s.mode ts else none) = none)
    (hfails : ∀ e, ((generate s ts).on fs).1 = .error e → e.IsAboutFiles) :
    RunsAs args fs (generate s ts) := by
  refine ⟨?_, hfails⟩
  rw [runOn_eq hargs]
  unfold perform
  rw [on_bind_of_ok hload, hgenerates]
  show (Outcome.ofAnswer ((generate s ts >>= fun _ => pure "").on fs).1,
    ((generate s ts >>= fun _ => pure "").on fs).2) = _
  rw [on_bind_pure]

/-- A run that describes prints the descriptions. -/
theorem runOn_describes {values : List Value} (hargs : Settings.ofArguments args = .ok s)
    (hload : (tablesOf s).on fs = (.ok ts, fs)) (hdescribes : s.describes = true)
    (hvalues : descriptions? s.mode ts = some (.ok values)) :
    runOn args fs = (⟨0, describe values, ""⟩, fs) := by
  have hperform : (perform s).on fs = (.ok (describe values), fs) := by
    unfold perform
    rw [on_bind_of_ok hload, hdescribes, if_pos rfl, hvalues]
    rfl
  rw [runOn_eq hargs, hperform]
  rfl

/-- The things that a text describes, as a reader of JSON gets them. -/
def described? (item? : Value → Option α) (text : String) : Option (List α) :=
  (Value.ofJson? text).bind (Value.list? item?)

theorem described?_describe {item? : Value → Option α} {value : α → Value}
    (h : ∀ a, item? (value a) = some a) (xs : List α) :
    described? item? (describe (xs.map value)) = some xs := by
  have hread : Value.ofJson? (describe (xs.map value)) = some (.list (xs.map value)) :=
    Value.ofJson?_json 0 _ (List.forall_mem_singleton.mpr rfl)
  rw [described?, hread, Option.bind_some, Value.list?_map h]

/-- A run prints one description for each of the things, in their order, and changes nothing. -/
def Prints (args : List String) (fs : FileTree) (item? : Value → Option α) (xs : List α) : Prop :=
  ∃ stdout, runOn args fs = (⟨0, stdout, ""⟩, fs) ∧ described? item? stdout = some xs

theorem prints_of_descriptions {item? : Value → Option α} {value : α → Value} {xs : List α}
    (hread : ∀ a, item? (value a) = some a) (hargs : Settings.ofArguments args = .ok s)
    (hload : (tablesOf s).on fs = (.ok ts, fs)) (hdescribes : s.describes = true)
    (hvalues : descriptions? s.mode ts = some (.ok (xs.map value))) : Prints args fs item? xs :=
  ⟨_, runOn_describes hargs hload hdescribes hvalues, described?_describe hread xs⟩

/-! ## Tables that are declared -/

/-- What is stored of the tables is the tables, and their sources can be generated. -/
structure Usable (ts : Tables) : Prop where
  restored : Tables.ofYaml ts.toYaml = .ok ts
  generates : Generates ts

theorem valid_of_loadDir {dir : String} (h : ((Tables.loadDir dir).on fs).1 = .ok ts) :
    ∀ t ∈ ts.toList, t.Valid := by
  intro t ht
  obtain ⟨_, hfiles⟩ := Tables.exists_filesDeclare h
  obtain ⟨_, _, _, _, hdeclares⟩ := exists_of_forall₂ hfiles.each t ht
  exact valid_of_ofSql hdeclares

theorem generates_of_valid (h : ∀ t ∈ ts.toList, t.Valid) : Generates ts := by
  intro t ht
  obtain ⟨_, c, hprimary⟩ := (h t ht).primary
  have hcolumn := hprimary.primaryKeyColumn?
  exact ⟨(Dao.exists_ofTable_iff t).mpr ⟨c, hcolumn⟩, (Model.exists_ofTable_iff t).mpr ⟨c, hcolumn⟩⟩

theorem usable_of_loadDir {dir : String} (h : ((Tables.loadDir dir).on fs).1 = .ok ts)
    (hstrings : ∀ t ∈ ts.toList, ∀ text ∈ t.strings, '\n' ∉ text.toList) : Usable ts where
  restored := Tables.ofYaml_eq_ok.mpr
    ⟨Tables.parseYaml?_toYaml hstrings, fun t ht => (valid_of_loadDir h t ht).flag⟩
  generates := generates_of_valid (valid_of_loadDir h)

/-! ## The first run -/

theorem isAboutFiles_of_writeSchema {root : String} {e : Error}
    (h : ((writeSchema root ts).on fs).1 = .error e) : e.IsAboutFiles := by
  have hsafe : Safe (fun _ => True) (writeSchema root ts) := by
    unfold writeSchema Tables.save
    exact .bind (.request fun _ _ => trivial) fun _ =>
      .bind (.request fun _ _ => trivial) fun _ => .pure _
  exact hsafe.fails fs e h

theorem runsAs_writeSchema (hargs : Settings.ofArguments args = .ok s) (hmode : s.mode = .schema)
    (hload : (Tables.loadDir s.sqlDir).on fs = (.ok ts, fs)) :
    RunsAs args fs (writeSchema s.outputDir ts) := by
  have htables : (tablesOf s).on fs = (.ok ts, fs) := by
    rw [tablesOf, hmode]
    exact hload
  have hgenerate : generate s ts = (writeSchema s.outputDir ts >>= fun path => pure [path] :
      Attempt (StateM FileTree) (List String)) := by
    rw [generate, hmode]
  refine RunsAs.of_bind_pure (f := fun path => [path]) ?_
  rw [← hgenerate]
  refine runsAs_generate hargs htables ?_ ?_
  · rw [hmode]
    exact ite_self none
  · intro e he
    rw [hgenerate, on_bind_pure, map_eq_error] at he
    exact isAboutFiles_of_writeSchema he

/-! ## Later runs -/

/-- What a run does that begins with these tables, in each of the later modes. -/
structure Continues (ts : Tables) (args : List String) (s : Settings) (fs : FileTree) : Prop where
  loads : (tablesOf s).on fs = (.ok ts, fs)
  entities : s.mode = .entity → s.describes = false →
    RunsAs args fs (writeEntities s.outputDir ts s.target)
  daos : s.mode = .dao → s.describes = false → RunsAs args fs (writeDaos s.outputDir ts s.target)
  models : s.mode = .model → s.describes = false →
    RunsAs args fs (writeModels s.outputDir ts s.target)
  report : s.mode = .report → RunsAs args fs (writeReport s.outputDir ts)
  describesEntities : s.mode = .entity → s.describes = true →
    Prints args fs Entity.ofValue? (ts.toList.map Entity.ofTable)
  describesDaos : s.mode = .dao → s.describes = true →
    ∃ daos, List.Forall₂ (fun t d => Dao.ofTable t = .ok d) ts.toList daos ∧
      Prints args fs Dao.ofValue? daos
  describesModels : s.mode = .model → s.describes = true →
    ∃ models, List.Forall₂ (fun t m => Model.ofTable t = .ok m) ts.toList models ∧
      Prints args fs Model.ofValue? models

theorem on_tablesOf_later (hmode : s.mode ≠ .schema) (husable : Usable ts)
    (hstores : Stores s.outputDir ts.toYaml fs) : (tablesOf s).on fs = (.ok ts, fs) := by
  have hload : (Tables.load (Files.join s.outputDir schemaDir)).on fs = (.ok ts, fs) := by
    rw [Tables.on_load, hstores]
    exact congrArg (·, fs) husable.restored
  unfold tablesOf
  split
  case h_1 hschema => exact absurd hschema hmode
  case h_2 => exact hload

/-- No later mode writes the stored schema, or fails for its tables. -/
theorem safe_generate (hmode : s.mode ≠ .schema) (schema : String) (hgenerates : Generates ts) :
    Safe (Stores s.outputDir schema) (generate s ts) := by
  cases hwhich : s.mode with
  | schema => exact absurd hwhich hmode
  | entity =>
    rw [generate, hwhich]
    exact safe_writeEntities _ _ _ _
  | dao =>
    rw [generate, hwhich]
    exact safe_writeDaos _ _ _ hgenerates
  | model =>
    rw [generate, hwhich]
    exact safe_writeModels _ _ _ hgenerates
  | report =>
    rw [generate, hwhich]
    exact .bind (safe_writeReport _ _ _) fun _ => .pure _

theorem runsAs_later (hargs : Settings.ofArguments args = .ok s) (hmode : s.mode ≠ .schema)
    (husable : Usable ts) (hstores : Stores s.outputDir ts.toYaml fs)
    (hgenerates : (if s.describes then descriptions? s.mode ts else none) = none) :
    RunsAs args fs (generate s ts) :=
  runsAs_generate hargs (on_tablesOf_later hmode husable hstores) hgenerates
    ((safe_generate hmode ts.toYaml husable.generates).fails fs)

theorem exists_daos (h : Generates ts) :
    ∃ daos, List.Forall₂ (fun t d => Dao.ofTable t = .ok d) ts.toList daos :=
  exists_forall₂ fun t ht => (h t ht).1

theorem exists_models (h : Generates ts) :
    ∃ models, List.Forall₂ (fun t m => Model.ofTable t = .ok m) ts.toList models :=
  exists_forall₂ fun t ht => (h t ht).2

theorem continues_of_stores (hargs : Settings.ofArguments args = .ok s) (hmode : s.mode ≠ .schema)
    (husable : Usable ts) (hstores : Stores s.outputDir ts.toYaml fs) :
    Continues ts args s fs := by
  have hload := on_tablesOf_later hmode husable hstores
  have hwrites : s.describes = false → RunsAs args fs (generate s ts) :=
    fun hdescribes => runsAs_later hargs hmode husable hstores (by rw [hdescribes]; rfl)
  refine ⟨hload, ?entities, ?daos, ?models, ?report, ?describesEntities, ?describesDaos,
    ?describesModels⟩
  case entities =>
    intro hentity hdescribes
    have hrun := hwrites hdescribes
    rwa [generate, hentity] at hrun
  case daos =>
    intro hdao hdescribes
    have hrun := hwrites hdescribes
    rwa [generate, hdao] at hrun
  case models =>
    intro hmodel hdescribes
    have hrun := hwrites hdescribes
    rwa [generate, hmodel] at hrun
  case report =>
    -- There is nothing to describe, so that the run is asked to does not matter.
    intro hreport
    have hrun := runsAs_later hargs hmode husable hstores (by rw [hreport]; exact ite_self none)
    rw [generate, hreport] at hrun
    exact hrun.of_bind_pure
  case describesEntities =>
    intro hentity hdescribes
    refine prints_of_descriptions Entity.ofValue?_value hargs hload hdescribes ?_
    rw [hentity, List.map_map]
    rfl
  case describesDaos =>
    intro hdao hdescribes
    obtain ⟨daos, hdaos⟩ := exists_daos husable.generates
    refine ⟨daos, hdaos, prints_of_descriptions Dao.ofValue?_value hargs hload hdescribes ?_⟩
    rw [hdao]
    exact congrArg some (mapM_map_eq_ok hdaos)
  case describesModels =>
    intro hmodel hdescribes
    obtain ⟨models, hmodels⟩ := exists_models husable.generates
    refine ⟨models, hmodels, prints_of_descriptions Model.ofValue?_value hargs hload hdescribes ?_⟩
    rw [hmodel]
    exact congrArg some (mapM_map_eq_ok hmodels)

/-! ## Runs after one another -/

/-- The arguments ask for a later mode, under the root, or for nothing that is understood. -/
def IsLater (root : String) (args : List String) : Prop :=
  ∀ s, Settings.ofArguments args = .ok s → s.mode ≠ .schema ∧ s.outputDir = root

/-- The tree that runs leave. -/
def afterRuns (fs : FileTree) (runs : List (List String)) : FileTree :=
  runs.foldl (fun fs args => (runOn args fs).2) fs

theorem stores_runOn {root : String} (husable : Usable ts) (hlater : IsLater root args)
    (hstores : Stores root ts.toYaml fs) : Stores root ts.toYaml (runOn args fs).2 := by
  cases hargs : Settings.ofArguments args with
  | error fault =>
    rw [runOn_of_usage hargs]
    exact hstores
  | ok s =>
    obtain ⟨hmode, rfl⟩ := hlater s hargs
    have hcontinues := continues_of_stores hargs hmode husable hstores
    have hkeeps := (safe_generate hmode ts.toYaml husable.generates).keeps fs hstores
    cases hdescribes : s.describes with
    | false =>
      rw [(runsAs_later hargs hmode husable hstores (by rw [hdescribes]; rfl)).run]
      exact hkeeps
    | true =>
      cases hwhich : s.mode with
      | schema => exact absurd hwhich hmode
      | entity =>
        obtain ⟨_, hrun, _⟩ := hcontinues.describesEntities hwhich hdescribes
        rw [hrun]
        exact hstores
      | dao =>
        obtain ⟨_, _, _, hrun, _⟩ := hcontinues.describesDaos hwhich hdescribes
        rw [hrun]
        exact hstores
      | model =>
        obtain ⟨_, _, _, hrun, _⟩ := hcontinues.describesModels hwhich hdescribes
        rw [hrun]
        exact hstores
      | report =>
        rw [(runsAs_later hargs hmode husable hstores (by rw [hwhich]; exact ite_self none)).run]
        exact hkeeps

theorem stores_afterRuns {root : String} {runs : List (List String)} (husable : Usable ts)
    (hlater : ∀ args ∈ runs, IsLater root args) (hstores : Stores root ts.toYaml fs) :
    Stores root ts.toYaml (afterRuns fs runs) := by
  induction runs generalizing fs with
  | nil => exact hstores
  | cons args rest ih =>
    obtain ⟨hargs, hrest⟩ := List.forall_mem_cons.mp hlater
    exact ih hrest (stores_runOn husable hargs hstores)

/-- A first run on a directory that declares no tables fails and changes nothing. On a directory
that declares tables it stores them, and if it succeeds then each later run, whatever later runs
were between, begins with just these tables and does what is done with them in memory. -/
theorem laterRuns_continue (hargs : Settings.ofArguments args = .ok s) (hmode : s.mode = .schema)
    (fs : FileTree) :
    (∀ e, ((Tables.loadDir s.sqlDir).on fs).1 = .error e →
      runOn args fs = (⟨2, "", "Error: " ++ e.message ++ "\n"⟩, fs)) ∧
    ∀ ts, ((Tables.loadDir s.sqlDir).on fs).1 = .ok ts →
      RunsAs args fs (writeSchema s.outputDir ts) ∧
      ((∀ t ∈ ts.toList, ∀ text ∈ t.strings, '\n' ∉ text.toList) →
        (runOn args fs).1.exitCode = 0 →
        ∀ between, (∀ run ∈ between, IsLater s.outputDir run) →
          ∀ later s', Settings.ofArguments later = .ok s' → s'.mode ≠ .schema →
            s'.outputDir = s.outputDir →
            Continues ts later s' (afterRuns (runOn args fs).2 between)) := by
  have hunchanged := Tables.loadDir_unchanged fs s.sqlDir
  refine ⟨?refused, fun ts hts => ?declared⟩
  case refused =>
    intro e he
    have htables : (tablesOf s).on fs = (.error e, fs) := by
      rw [tablesOf, hmode]
      exact Prod.ext he hunchanged
    rw [runOn_eq hargs, perform, on_bind_of_error htables]
    rfl
  case declared =>
    have hschema := runsAs_writeSchema hargs hmode (Prod.ext hts hunchanged)
    refine ⟨hschema, ?_⟩
    intro hstrings hexit between hbetween later s' hlater hmode' houtput
    obtain ⟨path, hwrite⟩ := hschema.exists_ok hexit
    have husable := usable_of_loadDir hts hstrings
    have hstores := stores_afterRuns husable hbetween (stores_writeSchema hwrite)
    rw [← houtput] at hstores
    exact continues_of_stores hlater hmode' husable hstores

/-- A project with one declaration. -/
def itemsProject : FileTree := ⟨[
  (["p"], .dir),
  (["p", "sql"], .dir),
  (["p", "sql", "items.sql"], .file Tables.itemsDeclaration)]⟩

def schemaArguments : List String := ["--root", "p", "schema"]

def entityArguments : List String := ["--root=p", "entity", "--module", "example"]

def daoArguments : List String := ["dao", "--root", "p", "--module", "example", "--json"]

/-- After entities were written, what is printed describes the data access of the table that was
declared. -/
theorem itemsProject_continues :
    ∃ s s' dao stdout, Settings.ofArguments schemaArguments = .ok s ∧ s.mode = .schema ∧
      ((Tables.loadDir s.sqlDir).on itemsProject).1 = .ok ⟨[Tables.itemsTable]⟩ ∧
      (runOn schemaArguments itemsProject).1.exitCode = 0 ∧
      Settings.ofArguments daoArguments = .ok s' ∧ Dao.ofTable Tables.itemsTable = .ok dao ∧
      (runOn daoArguments
        (afterRuns (runOn schemaArguments itemsProject).2 [entityArguments])).1 =
          ⟨0, stdout, ""⟩ ∧
      described? Dao.ofValue? stdout = some [dao] := by
  have hargs : Settings.ofArguments schemaArguments =
      .ok ⟨.schema, "p/sql", "p", false, .ofModule ""⟩ := eq_ok_of_toOption (by decide +kernel)
  have hentity : Settings.ofArguments entityArguments =
      .ok ⟨.entity, "p/sql", "p", false, .ofModule "example"⟩ :=
    eq_ok_of_toOption (by decide +kernel)
  have hdao : Settings.ofArguments daoArguments =
      .ok ⟨.dao, "p/sql", "p", true, .ofModule "example"⟩ := eq_ok_of_toOption (by decide +kernel)
  have hlist : itemsProject.list "p/sql" = .ok ["items.sql"] :=
    eq_ok_of_toOption (by decide +kernel)
  have hread : itemsProject.read "p/sql/items.sql" = .ok Tables.itemsDeclaration :=
    eq_ok_of_toOption (by decide +kernel)
  have hfiles : Tables.DeclarationFiles ["items.sql"] ["items.sql"] :=
    ⟨by decide +kernel, by decide +kernel⟩
  have hdeclares : Tables.FileDeclares itemsProject (Files.join "p/sql" "items.sql")
      Tables.itemsTable := ⟨_, hread, Tables.ofSql_itemsDeclaration⟩
  have hload : ((Tables.loadDir "p/sql").on itemsProject).1 = .ok ⟨[Tables.itemsTable]⟩ := by
    rw [Tables.loadDir_of_declarationFiles hlist hfiles, Tables.addFiles_empty_eq_ok]
    exact ⟨.cons hdeclares .nil, by decide⟩
  have hlater : ∀ run ∈ [entityArguments], IsLater "p" run := by
    intro run hrun s hs
    obtain rfl := List.mem_singleton.mp hrun
    rw [hentity] at hs
    cases hs
    exact ⟨by decide, rfl⟩
  obtain ⟨_, hdeclared⟩ := laterRuns_continue hargs rfl itemsProject
  obtain ⟨hschema, hcontinue⟩ := hdeclared _ hload
  have hexit : (runOn schemaArguments itemsProject).1.exitCode = 0 := by
    rw [hschema.run]
    decide +kernel
  have hcontinues := hcontinue (by decide) hexit _ hlater _ _ hdao (by decide) rfl
  obtain ⟨daos, hdaos, stdout, hrun, hdescribed⟩ := hcontinues.describesDaos rfl rfl
  obtain ⟨dao, _, hof, htail, rfl⟩ := List.forall₂_cons_left_iff.mp hdaos
  obtain rfl := List.forall₂_nil_left_iff.mp htail
  exact ⟨_, _, dao, stdout, hargs, rfl, hload, hexit, hdao, hof, congrArg (·.1) hrun, hdescribed⟩

/-- One run for each mode leaves what all that is generated leaves when it is written in memory. -/
theorem afterRuns_eq_writeAll {stages : Mode → List String} {sqlDir root : String} {target : Target}
    {paths : List String}
    (hargs : ∀ mode, Settings.ofArguments (stages mode) = .ok ⟨mode, sqlDir, root, false, target⟩)
    (hload : ((Tables.loadDir sqlDir).on fs).1 = .ok ts)
    (hstrings : ∀ t ∈ ts.toList, ∀ text ∈ t.strings, '\n' ∉ text.toList)
    (hall : (writeAll root ts target).on fs = (.ok paths, fs')) :
    afterRuns fs (Mode.all.map stages) = fs' := by
  have husable := usable_of_loadDir hload hstrings
  have hlater : ∀ mode, mode ≠ .schema → IsLater root (stages mode) := by
    intro mode hmode s hs
    rw [hargs] at hs
    cases hs
    exact ⟨hmode, rfl⟩
  obtain ⟨_, stored, hschema, hall⟩ := on_bind_eq_ok.mp hall
  obtain ⟨_, entities, hentities, hall⟩ := on_bind_eq_ok.mp hall
  obtain ⟨_, daos, hdaos, hall⟩ := on_bind_eq_ok.mp hall
  obtain ⟨_, models, hmodels, hall⟩ := on_bind_eq_ok.mp hall
  obtain ⟨_, reported, hreport, hall⟩ := on_bind_eq_ok.mp hall
  cases hall
  have hstores := stores_writeSchema hschema
  have hloaded : (Tables.loadDir sqlDir).on fs = (.ok ts, fs) :=
    Prod.ext hload (Tables.loadDir_unchanged fs sqlDir)
  obtain rfl := (runsAs_writeSchema (hargs .schema) rfl hloaded).tree hschema
  have hcontinues := continues_of_stores (hargs .entity) (by simp) husable hstores
  obtain rfl := (hcontinues.entities rfl rfl).tree hentities
  replace hstores := stores_runOn husable (hlater .entity (by decide)) hstores
  replace hcontinues := continues_of_stores (hargs .dao) (by simp) husable hstores
  obtain rfl := (hcontinues.daos rfl rfl).tree hdaos
  replace hstores := stores_runOn husable (hlater .dao (by decide)) hstores
  replace hcontinues := continues_of_stores (hargs .model) (by simp) husable hstores
  obtain rfl := (hcontinues.models rfl rfl).tree hmodels
  replace hstores := stores_runOn husable (hlater .model (by decide)) hstores
  replace hcontinues := continues_of_stores (hargs .report) (by simp) husable hstores
  exact (hcontinues.report rfl).tree hreport

end Tablewright.Command
