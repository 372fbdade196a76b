import Mathlib.Data.List.Forall2
import Tablewright.Proofs.Files.Attempt
import Tablewright.Proofs.Files.ByteOrder
import Tablewright.Proofs.Schema.Push
import Tablewright.Project.Load

/-! A directory of declarations is read file by file, in the order of the bytes of their names, up
to the first file that is at fault. What a file can be at fault for besides itself are the names
that the files before it have taken, so the faults of a run are told with the tables of the files
before. -/

namespace Tablewright.Tables

open Checks

variable {fs fs' : FileTree} {dir path : String} {ts ts' : Tables} {e : Error}

/-! ## The files of a directory -/

/-- Something, and behind it the extension. The extension alone is no name of a declaration. -/
def IsDeclarationName (name : String) : Prop := ∃ stem, stem ≠ "" ∧ name = stem ++ ".sql"

theorem hasExtension_sql_iff {name : String} :
    Files.hasExtension "sql" name = true ↔ IsDeclarationName name := by
  unfold Files.hasExtension IsDeclarationName
  simp only [Bool.and_eq_true, List.isSuffixOf_iff_suffix, bne_iff_ne]
  constructor
  · rintro ⟨⟨stem, hstem⟩, hne⟩
    refine ⟨.ofList stem, ?_, ?_⟩
    · intro hempty
      obtain rfl : stem = [] := by simpa using congrArg String.toList hempty
      exact hne hstem.symm
    · rw [← String.toList_inj, String.toList_append, String.toList_ofList]
      exact hstem.symm
  · rintro ⟨stem, hstem, rfl⟩
    rw [String.toList_append]
    refine ⟨⟨stem.toList, rfl⟩, fun heq => hstem ?_⟩
    have hlist : stem.toList = [] := List.append_left_eq_self.mp heq
    rwa [String.toList_eq_nil_iff] at hlist

instance : DecidablePred IsDeclarationName := fun _ => decidable_of_iff _ hasExtension_sql_iff

/-- The declaration files among the names in a directory, in the order of their bytes. -/
structure DeclarationFiles (names files : List String) : Prop where
  perm : files.Perm (names.filter fun name => IsDeclarationName name)
  ordered : files.Pairwise fun a b => Files.bytes a ≤ Files.bytes b

theorem declarationFiles_declarationNames (names : List String) :
    DeclarationFiles names (declarationNames names) where
  perm := by
    have hfilter : names.filter (Files.hasExtension "sql") =
        names.filter fun name => IsDeclarationName name :=
      List.filter_congr fun name _ => by
        rw [Bool.eq_iff_iff, hasExtension_sql_iff, decide_eq_true_eq]
    rw [declarationNames, hfilter]
    exact List.mergeSort_perm _ _
  ordered := (Files.pairwise_le_mergeSort _).imp Files.bytes_le_of_le

/-- The order of the files does not depend on the order in which the directory gives its names. -/
theorem DeclarationFiles.unique {names names' files files' : List String}
    (h : DeclarationFiles names files) (h' : DeclarationFiles names' files')
    (hperm : names.Perm names') : files = files' := by
  refine List.Perm.eq_of_pairwise ?_ h.ordered h'.ordered
    (h.perm.trans ((hperm.filter _).trans h'.perm.symm))
  intro a b _ _ hab hba
  exact Files.bytes_injective (List.le_antisymm hab hba)

/-! ## One file -/

/-- The file at the path declares the table. -/
def FileDeclares (fs : FileTree) (path : String) (t : Table) : Prop :=
  ∃ text, fs.read path = .ok text ∧ Table.ofSql text = .ok t

/-- The fault of the file at the path, where the names in `taken` belong to tables already. -/
inductive FileFault (fs : FileTree) (taken : List String) (path : String) : Error → Prop
  | unreadable {fault} (hread : fs.read path = .error fault) :
    FileFault fs taken path (.file path fault)
  | malformed {text e} (hread : fs.read path = .ok text) (hrefused : Table.ofSql text = .error e) :
    FileFault fs taken path (.table path e)
  | repeated {t} (hdeclares : FileDeclares fs path t) (hname : t.name ∈ taken) :
    FileFault fs taken path (.table path (.duplicateTable t.name))

/-- What becomes of tables when the file at the path is added. -/
def addFile (fs : FileTree) (path : String) (ts : Tables) : Except Error Tables :=
  (fs.read path).mapError (.file path) >>= fun text => ts.pushDeclared path text

theorem addFile_eq_ok :
    addFile fs path ts = .ok ts' ↔
      ∃ t, FileDeclares fs path t ∧ t.name ∉ ts.names ∧ ts' = ts.add t := by
  unfold addFile pushDeclared FileDeclares
  simp only [bind_eq_ok, mapError_eq_ok, push_eq_ok]
  constructor
  · rintro ⟨text, hread, t, ht, hname, rfl⟩
    exact ⟨t, ⟨text, hread, ht⟩, hname, rfl⟩
  · rintro ⟨t, ⟨text, hread, ht⟩, hname, rfl⟩
    exact ⟨text, hread, t, ht, hname, rfl⟩

theorem addFile_eq_error : addFile fs path ts = .error e ↔ FileFault fs ts.names path e := by
  unfold addFile pushDeclared
  simp only [bind_eq_error, mapError_eq_error, mapError_eq_ok, push_eq_error]
  constructor
  · rintro (⟨fault, hread, rfl⟩ | ⟨text, hread, cause, hrefused | ⟨t, ht, hname, rfl⟩, rfl⟩)
    · exact .unreadable hread
    · exact .malformed hread hrefused
    · exact .repeated ⟨text, hread, ht⟩ hname
  · intro h
    cases h with
    | unreadable hread => exact .inl ⟨_, hread, rfl⟩
    | malformed hread hrefused => exact .inr ⟨_, hread, _, .inl hrefused, rfl⟩
    | repeated hdeclares hname =>
      obtain ⟨text, hread, ht⟩ := hdeclares
      exact .inr ⟨text, hread, _, .inr ⟨_, ht, hname, rfl⟩, rfl⟩

/-! ## A run through files -/

/-- What becomes of tables when files of a directory are added one by one. -/
def addFiles (fs : FileTree) (dir : String) (ts : Tables) (files : List String) :
    Except Error Tables :=
  files.foldlM (fun ts name => addFile fs (Files.join dir name) ts) ts

theorem addFiles_cons (fs : FileTree) (dir : String) (ts : Tables) (name : String)
    (rest : List String) : addFiles fs dir ts (name :: rest) =
      addFile fs (Files.join dir name) ts >>= fun ts => addFiles fs dir ts rest :=
  List.foldlM_cons

/-- Reading files changes nothing. -/
theorem on_pushFiles (fs : FileTree) (dir : String) (ts : Tables) (files : List String) :
    (pushFiles dir ts files).on fs = (addFiles fs dir ts files, fs) := by
  induction files generalizing ts with
  | nil => rfl
  | cons name rest ih =>
    rw [addFiles_cons, pushFiles, Attempt.on_bind, Attempt.on_read, addFile]
    cases fs.read (Files.join dir name) with
    | error fault => rfl
    | ok text =>
      show (MonadExcept.ofExcept _ >>= fun ts => pushFiles dir ts rest : Attempt _ Tables).on fs = _
      rw [Attempt.on_bind, Attempt.on_ofExcept]
      show _ = ((ts.pushDeclared (Files.join dir name) text >>= fun ts =>
        addFiles fs dir ts rest), fs)
      cases ts.pushDeclared (Files.join dir name) text with
      | error e => rfl
      | ok ts' => exact ih ts'

/-- Files are added to tables if each declares one, and no two of all these have one name. -/
theorem addFiles_eq_ok {files : List String} (hts : ts.Distinct) :
    addFiles fs dir ts files = .ok ts' ↔
      ∃ added, List.Forall₂ (fun name t => FileDeclares fs (Files.join dir name) t) files added ∧
        ts'.toList = ts.toList ++ added ∧ ts'.Distinct := by
  induction files generalizing ts with
  | nil =>
    simp only [addFiles, List.foldlM_nil, List.forall₂_nil_left_iff, exists_eq_left,
      List.append_nil, pure, Except.pure, Except.ok.injEq]
    constructor
    · rintro rfl
      exact ⟨rfl, hts⟩
    · rintro ⟨hlist, _⟩
      cases ts
      cases ts'
      simp_all
  | cons name rest ih =>
    rw [addFiles_cons, bind_eq_ok]
    simp only [addFile_eq_ok, List.forall₂_cons_left_iff]
    constructor
    · rintro ⟨_, ⟨t, ht, hname, rfl⟩, hrest⟩
      obtain ⟨added, hadded, hlist, hdistinct⟩ :=
        (ih (distinct_add_iff.mpr ⟨hts, hname⟩)).mp hrest
      exact ⟨t :: added, ⟨t, added, ht, hadded, rfl⟩, by simp [hlist, add], hdistinct⟩
    · rintro ⟨_, ⟨t, added, ht, hadded, rfl⟩, hlist, hdistinct⟩
      have hlist' : ts'.toList = (ts.add t).toList ++ added := by simp [hlist, add]
      have hadd : (ts.add t).Distinct := hdistinct.of_append hlist'
      exact ⟨ts.add t, ⟨t, ht, (distinct_add_iff.mp hadd).2, rfl⟩,
        (ih hadd).mpr ⟨added, hadded, hlist', hdistinct⟩⟩

/-- The files declare the tables, one each, and no two tables have one name. -/
structure FilesDeclare (fs : FileTree) (dir : String) (files : List String) (ts : Tables) :
    Prop where
  each : List.Forall₂ (fun name t => FileDeclares fs (Files.join dir name) t) files ts.toList
  distinct : ts.Distinct

theorem addFiles_empty_eq_ok {files : List String} :
    addFiles fs dir .empty files = .ok ts ↔ FilesDeclare fs dir files ts := by
  rw [addFiles_eq_ok distinct_empty]
  constructor
  · rintro ⟨added, hadded, hlist, hdistinct⟩
    exact ⟨hlist ▸ hadded, hdistinct⟩
  · rintro ⟨heach, hdistinct⟩
    exact ⟨ts.toList, heach, rfl, hdistinct⟩

/-- A file is at fault, and the files before it are not. -/
def FirstFault (fs : FileTree) (dir : String) (files : List String) (e : Error) : Prop :=
  ∃ before name after ts, files = before ++ name :: after ∧ FilesDeclare fs dir before ts ∧
    FileFault fs ts.names (Files.join dir name) e

theorem addFiles_empty_eq_error {files : List String} :
    addFiles fs dir .empty files = .error e ↔ FirstFault fs dir files e := by
  unfold addFiles FirstFault
  rw [foldlM_eq_error]
  simp only [← addFile_eq_error, ← addFiles_empty_eq_ok]
  rfl

/-! ## A directory -/

theorem on_loadDir (fs : FileTree) (dir : String) :
    (loadDir dir).on fs = match fs.list dir with
      | .error fault => (.error (.file dir fault), fs)
      | .ok names => (addFiles fs dir .empty (declarationNames names), fs) := by
  rw [loadDir, Attempt.on_bind, Attempt.on_list]
  cases fs.list dir with
  | error fault => rfl
  | ok names => exact on_pushFiles fs dir .empty (declarationNames names)

theorem loadDir_unchanged (fs : FileTree) (dir : String) : ((loadDir dir).on fs).2 = fs := by
  rw [on_loadDir]
  cases fs.list dir <;> rfl

/-- Tables from a directory are declared by files in it. -/
theorem exists_filesDeclare (h : ((loadDir dir).on fs).1 = .ok ts) :
    ∃ files, FilesDeclare fs dir files ts := by
  rw [on_loadDir] at h
  cases hlist : fs.list dir with
  | error fault =>
    rw [hlist] at h
    cases h
  | ok names =>
    rw [hlist] at h
    exact ⟨declarationNames names, addFiles_empty_eq_ok.mp h⟩

/-- What files add depends on what they hold. -/
theorem addFiles_congr {files : List String}
    (h : ∀ name ∈ files, fs'.read (Files.join dir name) = fs.read (Files.join dir name)) :
    addFiles fs' dir ts files = addFiles fs dir ts files := by
  induction files generalizing ts with
  | nil => rfl
  | cons name rest ih =>
    obtain ⟨hname, hrest⟩ := List.forall_mem_cons.mp h
    rw [addFiles_cons, addFiles_cons, addFile, addFile, hname]
    simp only [ih hrest]

theorem loadDir_of_declarationFiles {names files : List String} (hlist : fs.list dir = .ok names)
    (hfiles : DeclarationFiles names files) :
    (loadDir dir).on fs = (addFiles fs dir .empty files, fs) := by
  rw [on_loadDir, hlist,
    hfiles.unique (declarationFiles_declarationNames names) (List.Perm.refl names)]

/-- A directory that can be listed gives one table for each declaration file, in the order of the
bytes of their names, or the fault of the first file at fault. The order in which its names are
listed does not matter, what else is in it does not matter, and after a fault nothing matters. -/
theorem loadDir_firstFault (fs : FileTree) (dir : String) :
    ((loadDir dir).on fs).2 = fs ∧
      (∀ fault, fs.list dir = .error fault →
        ((loadDir dir).on fs).1 = .error (.file dir fault)) ∧
      ∀ names, fs.list dir = .ok names → ∃ files, DeclarationFiles names files ∧
        (∀ ts, ((loadDir dir).on fs).1 = .ok ts ↔ FilesDeclare fs dir files ts) ∧
        (∀ e, ((loadDir dir).on fs).1 = .error e ↔ FirstFault fs dir files e) ∧
        (∀ fs' names', fs'.list dir = .ok names' → names'.Perm names →
          (∀ name ∈ files, fs'.read (Files.join dir name) = fs.read (Files.join dir name)) →
          ((loadDir dir).on fs').1 = ((loadDir dir).on fs).1) ∧
        ∀ e, ((loadDir dir).on fs).1 = .error e →
          ∃ before name after, files = before ++ name :: after ∧
            ∀ fs' names', fs'.list dir = .ok names' → names'.Perm names →
              (∀ other ∈ before ++ [name],
                fs'.read (Files.join dir other) = fs.read (Files.join dir other)) →
              ((loadDir dir).on fs').1 = .error e := by
  refine ⟨loadDir_unchanged fs dir, ?unlisted, fun names hlist => ?listed⟩
  case unlisted =>
    intro fault hlist
    rw [on_loadDir, hlist]
  case listed =>
    have hfiles := declarationFiles_declarationNames names
    have hload := loadDir_of_declarationFiles hlist hfiles
    have hother : ∀ fs' names', fs'.list dir = .ok names' → names'.Perm names →
        (loadDir dir).on fs' = (addFiles fs' dir .empty (declarationNames names), fs') := by
      intro fs' names' hlist' hperm
      have hfiles' := declarationFiles_declarationNames names'
      rw [loadDir_of_declarationFiles hlist' hfiles', hfiles'.unique hfiles hperm]
    refine ⟨declarationNames names, hfiles, ?succeeds, ?fails, ?order, ?later⟩
    case succeeds =>
      intro ts
      rw [hload]
      exact addFiles_empty_eq_ok
    case fails =>
      intro e
      rw [hload]
      exact addFiles_empty_eq_error
    case order =>
      intro fs' names' hlist' hperm hread
      rw [hload, hother fs' names' hlist' hperm, addFiles_congr hread]
    case later =>
      intro e he
      rw [hload] at he
      obtain ⟨before, name, after, ts, hsplit, hbefore, hfault⟩ := addFiles_empty_eq_error.mp he
      refine ⟨before, name, after, hsplit, fun fs' names' hlist' hperm hread => ?_⟩
      rw [hother fs' names' hlist' hperm, addFiles_empty_eq_error]
      refine ⟨before, name, after, ts, hsplit, ?_, ?_⟩
      · rw [← addFiles_empty_eq_ok] at hbefore ⊢
        rwa [addFiles_congr fun other hmem => hread other (List.mem_append_left _ hmem)]
      · rw [← addFile_eq_error] at hfault ⊢
        rwa [addFile, hread name (by simp), ← addFile]

def itemsDeclaration : String := "CREATE TABLE items (id INT NOT NULL, PRIMARY KEY (id));"

def itemsTable : Table :=
  { name := "items"
    columns := [⟨"id", "int", .int32, 0, false, false, true, none, true, [], []⟩]
    indexes := [⟨"PRIMARY", true, true, ["id"]⟩]
    isReadOnly := true }

theorem ofSql_itemsDeclaration : Table.ofSql itemsDeclaration = .ok itemsTable :=
  eq_ok_of_toOption (by decide +kernel)

/-- A directory in which two files declare one table, and a third file declares nothing. -/
def repeatedItems : FileTree := ⟨[
  (["sql"], .dir),
  (["sql", "c.sql"], .file "no declaration"),
  (["sql", "notes.txt"], .file "items are declared twice"),
  (["sql", "b.sql"], .file itemsDeclaration),
  (["sql", "a.sql"], .file itemsDeclaration)]⟩

/-- The second of the files that declare a table is at fault, in whatever order they are listed. -/
theorem repeatedItems_firstFault :
    repeatedItems.list "sql" = .ok ["c.sql", "notes.txt", "b.sql", "a.sql"] ∧
      ((loadDir "sql").on repeatedItems).1 =
        .error (.table "sql/b.sql" (.duplicateTable "items")) ∧
      ((loadDir "sql").on ⟨repeatedItems.entries.reverse⟩).1 =
        .error (.table "sql/b.sql" (.duplicateTable "items")) := by
  have hlist : repeatedItems.list "sql" = .ok ["c.sql", "notes.txt", "b.sql", "a.sql"] :=
    eq_ok_of_toOption (by decide +kernel)
  have hreversed : (⟨repeatedItems.entries.reverse⟩ : FileTree).list "sql" =
      .ok ["a.sql", "b.sql", "notes.txt", "c.sql"] := eq_ok_of_toOption (by decide +kernel)
  have ha : FileDeclares repeatedItems "sql/a.sql" itemsTable :=
    ⟨itemsDeclaration, eq_ok_of_toOption (by decide +kernel), ofSql_itemsDeclaration⟩
  have hb : FileDeclares repeatedItems "sql/b.sql" itemsTable :=
    ⟨itemsDeclaration, eq_ok_of_toOption (by decide +kernel), ofSql_itemsDeclaration⟩
  obtain ⟨_, _, hlisted⟩ := loadDir_firstFault repeatedItems "sql"
  obtain ⟨files, hfiles, _, hfails, horder, _⟩ := hlisted _ hlist
  obtain rfl : files = ["a.sql", "b.sql", "c.sql"] :=
    hfiles.unique ⟨by decide +kernel, by decide +kernel⟩ (List.Perm.refl _)
  have hfault : ((loadDir "sql").on repeatedItems).1 =
      .error (.table "sql/b.sql" (.duplicateTable "items")) :=
    (hfails _).mpr ⟨["a.sql"], "b.sql", ["c.sql"], ⟨[itemsTable]⟩, rfl, ⟨.cons ha .nil, by decide⟩,
      .repeated hb (by decide)⟩
  refine ⟨hlist, hfault, (horder _ _ hreversed (by decide) ?_).trans hfault⟩
  simp only [List.forall_mem_cons]
  exact ⟨rfl, rfl, rfl, by simp⟩

end Tablewright.Tables
