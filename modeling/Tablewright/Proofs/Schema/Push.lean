import Tablewright.Proofs.Schema.Validity
import Tablewright.Schema.Tables

/-! The names in a collection of tables. A push never brings a name twice, and it never takes one
away: however many pushes a run makes, and however many of them are refused, the names are distinct
at its end exactly if they were at its beginning. -/

namespace Tablewright.Tables

variable {ts ts' : Tables} {t : Table}

def names (ts : Tables) : List String := ts.toList.map (·.name)

/-- No two tables have one name. -/
def Distinct (ts : Tables) : Prop := ts.names.Nodup

instance : DecidablePred Distinct := fun ts => inferInstanceAs (Decidable ts.names.Nodup)

/-- The collection with a table more. -/
def add (ts : Tables) (t : Table) : Tables := ⟨ts.toList ++ [t]⟩

@[simp] theorem names_add (ts : Tables) (t : Table) : (ts.add t).names = ts.names ++ [t.name] := by
  simp [names, add]

theorem distinct_empty : empty.Distinct := List.nodup_nil

theorem distinct_add_iff : (ts.add t).Distinct ↔ ts.Distinct ∧ t.name ∉ ts.names := by
  unfold Distinct
  rw [names_add, List.nodup_append_comm, List.singleton_append, List.nodup_cons, and_comm]

theorem Distinct.of_append {added : List Table} (h : ts'.Distinct)
    (hlist : ts'.toList = ts.toList ++ added) : ts.Distinct := by
  unfold Distinct names at h ⊢
  rw [hlist, List.map_append] at h
  exact (List.nodup_append.mp h).1

/-! ## Pushes -/

theorem get?_isSome_iff (ts : Tables) (name : String) :
    (ts.get? name).isSome = true ↔ name ∈ ts.names := by
  simp [get?, names]

theorem push_eq (ts : Tables) (t : Table) :
    ts.push t = if t.name ∈ ts.names then .error (.duplicateTable t.name) else .ok (ts.add t) := by
  simp only [push, get?_isSome_iff, add]

theorem push_eq_ok : ts.push t = .ok ts' ↔ t.name ∉ ts.names ∧ ts' = ts.add t := by
  rw [push_eq]
  by_cases h : t.name ∈ ts.names
  · simp [h]
  · simp [h, eq_comm]

theorem push_eq_error {e : SchemaError} :
    ts.push t = .error e ↔ t.name ∈ ts.names ∧ e = .duplicateTable t.name := by
  rw [push_eq]
  by_cases h : t.name ∈ ts.names
  · simp [h, eq_comm]
  · simp [h]

theorem distinct_push_iff (h : ts.push t = .ok ts') : ts'.Distinct ↔ ts.Distinct := by
  obtain ⟨hname, rfl⟩ := push_eq_ok.mp h
  rw [distinct_add_iff, and_iff_left hname]

/-- What becomes of a collection when tables are pushed one by one. A push that is refused leaves it
as it was. -/
def afterPushes (ts : Tables) : List Table → Tables
  | [] => ts
  | t :: rest =>
    match ts.push t with
    | .ok ts' => ts'.afterPushes rest
    | .error _ => ts.afterPushes rest

theorem distinct_afterPushes_iff (ts : Tables) (pushed : List Table) :
    (ts.afterPushes pushed).Distinct ↔ ts.Distinct := by
  induction pushed generalizing ts with
  | nil => rfl
  | cons t rest ih =>
    rw [afterPushes]
    cases h : ts.push t with
    | ok ts' => exact (ih ts').trans (distinct_push_iff h)
    | error e => exact ih ts

/-- Where names are distinct, every table is found under its name. -/
theorem Distinct.get? (h : ts.Distinct) (ht : t ∈ ts.toList) : ts.get? t.name = some t :=
  find?_key h ht

end Tablewright.Tables
