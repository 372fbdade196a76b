import Tablewright.Entity.Source
import Tablewright.Proofs.Dao.ReadOnly
import Tablewright.Proofs.Model.Types

/-! What is generated for a table that is just read has no way to change rows: the entity is not
encoded, the data access does not save, and the wrapper of an entity holds nothing but the entity.
All three go by the name of the table. -/

namespace Tablewright

open Code

namespace Entity

/-- Only an entity whose rows change is encoded. -/
theorem functionNames_source (e : Entity) (t : Target) :
    (e.source t).functionNames =
      (if e.isReadOnly then [] else ["EncodeRapidash", "EncodeRapidash"]) ++
        ["DecodeRapidash", "DecodeRapidash", "Struct"] := by
  show (e.items t).filterMap _ = _
  unfold items
  cases e.isReadOnly <;> rfl

end Entity

namespace Model

/-- The wrapper of an entity holds the entity alone and has no methods. If entity and collection
have one name, so have their types here, and what has that name may also be of the collection. -/
structure OnlyWraps (m : Model) (t : Target) : Prop where
  fields : ∀ fields, .struct m.instanceName fields ∈ (m.source t).items ↔
    fields = [.embedded (.pointer (m.entityType t))] ∨
      m.name = m.collectionName ∧ fields = [.plain "values" (.slice m.instanceType)]
  methods : ∀ fn ∈ (m.source t).functions, fn.isMethodOf m.instanceName = true ↔
    m.name = m.collectionName ∧ .func fn ∈ m.collectionItems t ∧
      fn.isMethodOf m.collectionInstanceName = true

theorem onlyWraps {m : Model} (hro : m.isReadOnly = true) (t : Target) : m.OnlyWraps t := by
  refine ⟨fun fields => ?_, fun fn hfn => ?_⟩
  · have himpl : m.instanceName ≠ m.implName := implName_ne m.name
    show .struct m.instanceName fields ∈ m.items t ↔ _
    rw [struct_mem_items_iff, ← collectionInstanceName_eq_iff, instanceFields, if_pos hro]
    simp [himpl, collectionFields, eq_comm]
  · rw [isMethodOf_instanceName_iff hfn]
    simp [hro]

end Model

/-- What is generated for a table has no way to change rows. -/
structure Table.OnlyRead (tb : Table) (t : Target) : Prop where
  entity : "EncodeRapidash" ∉ ((Entity.ofTable tb).source t).functionNames
  dao : ∀ d, Dao.ofTable tb = .ok d → d.OnlyReads t
  model : ∀ m, Model.ofTable tb = .ok m → m.OnlyWraps t
  /-- All three are of the kind that is just read. -/
  agree : (Entity.ofTable tb).isReadOnly = true ∧
    (∀ d, Dao.ofTable tb = .ok d → d.isReadOnly = true) ∧
    ∀ m, Model.ofTable tb = .ok m → m.isReadOnly = true
  /-- What the table says of itself does not matter. -/
  flag : ∀ isReadOnly, Entity.ofTable { tb with isReadOnly } = Entity.ofTable tb ∧
    Dao.ofTable { tb with isReadOnly } = Dao.ofTable tb ∧
    Model.ofTable { tb with isReadOnly } = Model.ofTable tb

/-- A table that is just read by its name gets no way to change rows. -/
theorem Table.onlyRead_of_convention {tb : Table} (h : tb.convention = .readOnly) (t : Target) :
    tb.OnlyRead t := by
  have hro : tb.convention.isReadOnly = true := by rw [h]; rfl
  have hentity : (Entity.ofTable tb).isReadOnly = true := hro
  have hdao : ∀ d, Dao.ofTable tb = .ok d → d.isReadOnly = true := by
    intro d hd
    obtain ⟨key, hof⟩ := Dao.exists_isOf hd
    rw [Dao.isReadOnly, hof.convention, hro]
  have hmodel : ∀ m, Model.ofTable tb = .ok m → m.isReadOnly = true := by
    intro m hm
    rw [(Model.isOf_of_ofTable hm).isReadOnly, hro]
  refine ⟨?_, fun d hd => Dao.onlyReads hd (hdao d hd), fun m hm => Model.onlyWraps (hmodel m hm) t,
    ⟨hentity, hdao, hmodel⟩, fun _ => ⟨rfl, rfl, rfl⟩⟩
  rw [Entity.functionNames_source, if_pos hentity]
  decide

/-- Rankings are master data, but one of their lookups asks who the current user is. -/
theorem rankings_onlyRead :
    Dao.rankings.convention = .readOnly ∧ Dao.rankings.OnlyRead (.ofModule "example") ∧
      ∃ d m, Dao.ofTable Dao.rankings = .ok d ∧ Model.ofTable Dao.rankings = .ok m ∧
        d.hasUserIdGetter = true ∧
        (d.signatures (.ofModule "example")).map (·.name) =
          ["FindsAll", "FindByID", "FindByIDs", "FindByScore", "FindByScores",
            "FindByScoreAndLevel"] ∧
        ∀ fn ∈ (m.source (.ofModule "example")).functions,
          fn.isMethodOf "RankingInstance" = false := by
  have hconvention : Dao.rankings.convention = .readOnly := by decide +kernel
  have honly := Table.onlyRead_of_convention hconvention (.ofModule "example")
  obtain ⟨d, hd⟩ : ∃ d, Dao.ofTable Dao.rankings = .ok d := ⟨_, rfl⟩
  obtain ⟨m, hm⟩ : ∃ m, Model.ofTable Dao.rankings = .ok m := ⟨_, rfl⟩
  obtain ⟨key, hof⟩ := Dao.exists_isOf hd
  obtain ⟨hscoped, hnames⟩ : Dao.rankings.finders.any (·.isUserScoped) = true ∧
      Dao.rankings.finders.map (·.name) =
        ["FindByID", "FindByIDs", "FindByScore", "FindByScores", "FindByScoreAndLevel"] := by
    decide +kernel
  refine ⟨hconvention, honly, d, m, hd, hm, ?_, ?_, ?_⟩
  · rw [hof.hasUserIdGetter, hscoped, Bool.or_true]
  · rw [Dao.names_signatures, Dao.methodNames, honly.agree.2.1 d hd, hof.methods, hnames]
    rfl
  · intro fn hfn
    have hname : m.name = "Ranking" := by
      rw [(Model.isOf_of_ofTable hm).name]
      decide +kernel
    have hcollection : m.collectionName = "Rankings" := by
      rw [(Model.isOf_of_ofTable hm).collectionName]
      decide +kernel
    have hmethods := (honly.model m hm).methods fn hfn
    rw [Model.instanceName, hname, hcollection] at hmethods
    simpa using hmethods

/-- A table whose name is no plural. A declaration of it is refused. -/
def singularItem : Table :=
  { name := "item"
    columns := [⟨"id", "int", .int32, 0, false, false, true, none, true, [], []⟩]
    indexes := [⟨"PRIMARY", true, true, ["id"]⟩]
    isReadOnly := true }

/-- Entity and collection have one name, so the type that wraps an entity has the methods of the
collection. -/
theorem singularItem_hasMethods :
    singularItem.convention = .readOnly ∧ ∃ m, Model.ofTable singularItem = .ok m ∧
      m.instanceName = "ItemInstance" ∧
      ∃ fn ∈ (m.source (.ofModule "example")).functions,
        fn.isMethodOf "ItemInstance" = true ∧ fn.signature.name = "Add" := by
  obtain ⟨m, hm⟩ : ∃ m, Model.ofTable singularItem = .ok m := ⟨_, rfl⟩
  have hname : m.name = "Item" := by
    rw [(Model.isOf_of_ofTable hm).name]
    decide +kernel
  have hcollection : m.collectionName = "Item" := by
    rw [(Model.isOf_of_ofTable hm).collectionName]
    decide +kernel
  obtain ⟨add, hadd, hreceiver, hcalled⟩ : ∃ add, .func add ∈ m.fixedMethods (.ofModule "example") ∧
      add.receiver = some ⟨"i", m.collectionType⟩ ∧ add.signature.name = "Add" :=
    ⟨_, List.mem_cons_self, rfl, rfl⟩
  have hmem : .func add ∈ m.items (.ofModule "example") :=
    List.mem_append_right _ (List.mem_append_left _ (List.mem_append_left _
      (List.mem_append_right _ hadd)))
  refine ⟨by decide +kernel, m, hm, ?_, add, SourceFile.mem_functions.mpr hmem, ?_, hcalled⟩
  · rw [Model.instanceName, hname]
    rfl
  · rw [Function.isMethodOf, hreceiver, Model.collectionType, Model.collectionInstanceName,
      hcollection]
    rfl

end Tablewright
