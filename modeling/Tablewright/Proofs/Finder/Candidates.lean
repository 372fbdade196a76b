import Tablewright.Proofs.Finder.FirstOfEachName

/-! The lookups that a table offers, as a list that is told index by index and position by position:
the lookup of a prefix is made from the whole index and the length of the prefix. The computed
candidates, which carry the part of the index already read along, are this list. -/

namespace Tablewright.Finder

/-! ## The lookups, told by positions -/

/-- The lookup of all rows of the current user. -/
def ownerLookup (t : Table) : Finder :=
  { name := "Find"
    args := []
    arity :=
      if ∃ i ∈ t.indexes, i.isUnique = true ∧ i.columns = [userIdColumn] then .single
      else .collection
    lookup := .eq
    columns := [userIdColumn] }

/-- The columns that a caller gives a value for. -/
def givenColumns (cs : List Column) : List Column := cs.filter (·.name ≠ userIdColumn)

/-- The lookup of the first `k` of the columns of an index. -/
def prefixLookup (isUnique : Bool) (cs : List Column) (k : Nat) : Finder :=
  { name := "FindBy" ++ Text.join "And" ((givenColumns (cs.take k)).map (Names.field ·.name))
    args := (givenColumns (cs.take k)).mapIdx fun n c =>
      ⟨"k" ++ toString n, c.name, c.entityType, false⟩
    arity := if isUnique = true ∧ k = cs.length then .single else .collection
    lookup := .eq
    columns := (cs.take k).map (·.name) }

/-- The lookup of one column by a sequence of values. -/
def sequenceLookup (c : Column) : Finder :=
  { name := "FindBy" ++ Names.pluralField c.name
    args := [⟨"k0", c.name, c.entityType, true⟩]
    arity := .collection
    lookup := .among
    columns := [c.name] }

/-- The lookups of the prefix that ends with the column `c` at position `p`. -/
def lookupsAt (isUnique : Bool) (cs : List Column) : Column × Nat → List Finder
  | (c, p) =>
    if c.name = userIdColumn then []
    else prefixLookup isUnique cs (p + 1) :: if p = 0 then [sequenceLookup c] else []

/-- The lookups of an index, the shorter prefixes first. -/
def indexLookups (t : Table) (index : Index) : List Finder :=
  let cs := index.columns.filterMap t.column?
  cs.zipIdx.flatMap (lookupsAt index.isUnique cs)

/-- The lookups of a table, those of the owner first. -/
def lookups (t : Table) : List Finder :=
  (if t.convention = .userScoped then [ownerLookup t] else []) ++
    t.indexes.flatMap (indexLookups t)

theorem mem_lookupsAt {isUnique : Bool} {cs : List Column} {c : Column} {p : Nat} {f : Finder} :
    f ∈ lookupsAt isUnique cs (c, p) ↔
      c.name ≠ userIdColumn ∧
        (f = prefixLookup isUnique cs (p + 1) ∨ p = 0 ∧ f = sequenceLookup c) := by
  by_cases hc : c.name = userIdColumn
  · simp [lookupsAt, hc]
  · by_cases hp : p = 0
    · simp [lookupsAt, hc, hp]
    · simp [lookupsAt, hc, hp]

/-- Where a lookup can come from. -/
theorem mem_lookups {t : Table} {f : Finder} :
    f ∈ lookups t ↔
      t.convention = .userScoped ∧ f = ownerLookup t ∨
        ∃ i ∈ t.indexes, ∃ c p, (i.columns.filterMap t.column?)[p]? = some c ∧
          c.name ≠ userIdColumn ∧
          (f = prefixLookup i.isUnique (i.columns.filterMap t.column?) (p + 1) ∨
            p = 0 ∧ f = sequenceLookup c) := by
  have howner : f ∈ (if t.convention = .userScoped then [ownerLookup t] else []) ↔
      t.convention = .userScoped ∧ f = ownerLookup t := by
    split <;> simp [*]
  unfold lookups indexLookups
  rw [List.mem_append, howner]
  simp only [List.mem_flatMap, Prod.exists, mem_lookupsAt, List.mem_zipIdx_iff_getElem?]

/-! ## The computed candidates -/

theorem isOwner_iff {c : Column} : isOwner c = true ↔ c.name = userIdColumn := by
  simp [isOwner]

theorem argsFrom_eq_mapIdx (position : Nat) (cs : List Column) :
    argsFrom position cs =
      cs.mapIdx fun n c => ⟨"k" ++ toString (position + n), c.name, c.entityType, false⟩ := by
  induction cs generalizing position with
  | nil => rfl
  | cons c rest ih =>
    rw [argsFrom, ih (position + 1), List.mapIdx_cons, Nat.add_zero]
    congr 2
    funext n c
    rw [Nat.add_assoc, Nat.add_comm 1 n]

theorem byPrefix_eq (cs : List Column) (isUnique isWhole : Bool) (k : Nat)
    (hwhole : isWhole = true ↔ k = cs.length) :
    byPrefix (cs.take k) isUnique isWhole = prefixLookup isUnique cs k := by
  have hgiven : (cs.take k).filter (!isOwner ·) = givenColumns (cs.take k) := by
    simp [givenColumns, isOwner]
  have harity : (isUnique && isWhole) = true ↔ isUnique = true ∧ k = cs.length := by
    rw [Bool.and_eq_true, hwhole]
  unfold byPrefix prefixLookup
  dsimp only
  rw [hgiven, argsFrom_eq_mapIdx]
  simp only [harity, Nat.zero_add]

/-- Carrying the part already read along and counting positions give the same lookups. -/
theorem ofPrefixes_eq (isUnique : Bool) (before rest : List Column) :
    ofPrefixes isUnique before rest =
      (rest.zipIdx before.length).flatMap (lookupsAt isUnique (before ++ rest)) := by
  induction rest generalizing before with
  | nil => rfl
  | cons c rest ih =>
    have htake : before ++ [c] = (before ++ c :: rest).take (before.length + 1) := by
      rw [List.take_length_add_append]
      rfl
    have hwhole : rest.isEmpty = true ↔ before.length + 1 = (before ++ c :: rest).length := by
      simp
    have hfirst : before.isEmpty = true ↔ before.length = 0 := by
      simp
    rw [ofPrefixes, ih, List.zipIdx_cons, List.flatMap_cons]
    congr 1
    · simp only [lookupsAt, isOwner_iff, hfirst]
      rw [htake, byPrefix_eq _ _ _ _ hwhole]
      rfl
    · simp

theorem ofIndex_eq_indexLookups (t : Table) (index : Index) :
    ofIndex t index = indexLookups t index :=
  ofPrefixes_eq index.isUnique [] (indexColumns t index)

theorem candidates_eq_lookups (t : Table) : candidates t = lookups t := by
  have howner : ofOwner t = ownerLookup t := by
    unfold ofOwner ownerLookup
    simp
  have hindex : ofIndex t = indexLookups t := funext (ofIndex_eq_indexLookups t)
  unfold candidates lookups
  rw [howner, hindex]
  simp [Convention.isUserScoped]

/-- The lookups of a table are the first of each name in the list told by positions. They are the
only list that is. -/
theorem finders_firstOfEachName (t : Table) (fs : List Finder) :
    FirstOfEachName (lookups t) fs ↔ fs = t.finders := by
  have hspec : FirstOfEachName (lookups t) t.finders := by
    unfold Table.finders
    rw [candidates_eq_lookups]
    exact firstOfEachName_spec (lookups t)
  constructor
  · intro h
    exact h.unique hspec
  · intro h
    rw [h]
    exact hspec

end Tablewright.Finder
