import Tablewright.Proofs.Project.Load
import Tablewright.Proofs.Schema.Stored

/-! Where collections of tables come from, and whether two of their tables can have one name. An
empty collection and a directory of declarations begin with distinct names, and pushes keep them so.
A stored schema is taken as it is written: the flags are checked, the names are not. -/

namespace Tablewright.Tables

open Checks

theorem distinct_of_loadDir {fs : FileTree} {dir : String} {ts : Tables}
    (h : ((loadDir dir).on fs).1 = .ok ts) : ts.Distinct := by
  obtain ⟨_, hfiles⟩ := exists_filesDeclare h
  exact hfiles.distinct

/-- A text is refused if it holds no tables, and for their flags, but not for their names. -/
theorem ofYaml_eq_ok {text : String} {ts : Tables} :
    ofYaml text = .ok ts ↔ parseYaml? text = some ts ∧ ∀ t ∈ ts.toList, t.FlagAgrees := by
  rw [ofYaml]
  cases parseYaml? text with
  | none => simp
  | some stored =>
    simp only [mapError_eq_ok, map_eq_ok, Option.some.injEq]
    constructor
    · rintro ⟨_, hflags, rfl⟩
      exact ⟨rfl, checkFlags_eq_ok.mp hflags⟩
    · rintro ⟨rfl, hflags⟩
      exact ⟨(), checkFlags_eq_ok.mpr hflags, rfl⟩

theorem on_load (fs : FileTree) (dir : String) :
    (load dir).on fs = (do
      ofYaml (← (fs.read (Files.join dir storedName)).mapError (.file (Files.join dir storedName))),
      fs) := by
  rw [load, Attempt.on_bind, Attempt.on_read]
  cases fs.read (Files.join dir storedName) with
  | error fault => rfl
  | ok text => exact Attempt.on_ofExcept (ofYaml text) fs

/-- Names are distinct after any pushes, refused ones among them, if they were distinct before. They
are in a collection that begins empty or with a directory. One that begins with a stored schema has
the names that are written there. With distinct names every table is found under its name. -/
theorem afterPushes_distinct (pushed : List Table) :
    (empty.afterPushes pushed).Distinct ∧
      (∀ fs dir ts, ((loadDir dir).on fs).1 = .ok ts → (ts.afterPushes pushed).Distinct) ∧
      (∀ fs dir ts, ((load dir).on fs).1 = .ok ts ↔
        ∃ text, fs.read (Files.join dir storedName) = .ok text ∧ ofYaml text = .ok ts) ∧
      (∀ text ts, ofYaml text = .ok ts ↔
        parseYaml? text = some ts ∧ ∀ t ∈ ts.toList, t.FlagAgrees) ∧
      (∀ ts : Tables, (ts.afterPushes pushed).Distinct ↔ ts.Distinct) ∧
      ∀ ts : Tables, ts.Distinct → ∀ t ∈ (ts.afterPushes pushed).toList,
        (ts.afterPushes pushed).get? t.name = some t := by
  refine ⟨(distinct_afterPushes_iff _ pushed).mpr distinct_empty, ?directory, ?stored,
    fun _ _ => ofYaml_eq_ok, fun ts => distinct_afterPushes_iff ts pushed, ?found⟩
  case directory =>
    intro fs dir ts h
    exact (distinct_afterPushes_iff ts pushed).mpr (distinct_of_loadDir h)
  case stored =>
    intro fs dir ts
    rw [on_load, bind_eq_ok]
    simp only [mapError_eq_ok]
  case found =>
    intro ts hts t ht
    exact ((distinct_afterPushes_iff ts pushed).mpr hts).get? ht

/-- A stored schema with two tables of one name. -/
def storedTwice : String :=
  "- name: items\n  columns: []\n  indexes: []\n  is_read_only: true\n" ++
  "- name: items\n  columns: []\n  indexes:\n  - name: PRIMARY\n    is_primary_key: true\n" ++
  "    is_unique: true\n    columns:\n    - id\n  is_read_only: true\n"

def twiceItems : Tables := ⟨[
  ⟨"items", [], [], true⟩,
  ⟨"items", [], [⟨"PRIMARY", true, true, ["id"]⟩], true⟩]⟩

/-- Both tables are in the collection, and the second of them is not found. -/
theorem storedTwice_not_distinct :
    ofYaml storedTwice = .ok twiceItems ∧ ¬ twiceItems.Distinct ∧
      ∃ t ∈ twiceItems.toList, twiceItems.get? t.name ≠ some t := by
  have hstored : parseYaml? twiceItems.toYaml = some twiceItems := parseYaml?_toYaml (by decide)
  have htext : twiceItems.toYaml = storedTwice := by decide +kernel
  have hflags : ∀ t ∈ twiceItems.toList, t.FlagAgrees := by decide +kernel
  exact ⟨ofYaml_eq_ok.mpr ⟨htext ▸ hstored, hflags⟩, by decide, by decide⟩

end Tablewright.Tables
