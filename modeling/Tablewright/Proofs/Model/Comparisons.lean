import Tablewright.Model.Source
import Tablewright.Proofs.Dao.Comparisons
import Tablewright.Proofs.Model.Forwarding
import Tablewright.Proofs.Schema.Validity

/-! The comparisons in the file of a model. A filter by the value of a column is written only if the
values can be compared, but the search by identifier is written for every type of key. -/

namespace Tablewright

open Code

namespace Model

variable {m : Model} {tb : Table} {t : Target} {fn : Function}

/-- What the file of the model sees. -/
def visible (m : Model) (e : Entity) (t : Target) : Visible :=
  ⟨m.items t, t.packagePath entityPackage, e.items t⟩

theorem exists_primaryKey (h : ofTable tb = .ok m) :
    ∃ key, tb.primaryKeyColumn? = some key ∧ m.primaryKey = .ofColumn key ∧
      m.columns = tb.columns.map .ofColumn := by
  unfold ofTable at h
  split at h
  · cases h
  · rename_i key hkey
    obtain rfl := Except.ok.inj h
    exact ⟨key, hkey, rfl, rfl⟩

/-! ## Values of a collection -/

/-- The method of a collection goes over its values. -/
theorem variableType_value (e : Entity) {name : String} {params : List Param}
    {results : List TypeRef} {body inner : List Stmt}
    (h : .func fn = m.collectionMethod name params results body) (hrange : eachValue inner ∈ body) :
    (m.visible e t).VariableType fn "v" m.instanceType := by
  cases h
  have hcollection : .struct m.collectionInstanceName [.plain "values" (.slice m.instanceType)] ∈
      m.items t := List.mem_append_right _ List.mem_cons_self
  exact .element hrange (.receiver rfl) (.own hcollection List.mem_cons_self)

/-- A value of a collection has the fields of its entity. -/
theorem operandType_value (hm : ofTable tb = .ok m) {c : Column} (hc : c ∈ tb.columns)
    (hvalue : (m.visible (.ofTable tb) t).VariableType fn "v" m.instanceType) :
    (m.visible (.ofTable tb) t).OperandType fn
      (.field (.ident "v") (ModelColumn.ofColumn c).field) c.entityType.valueType := by
  have hstruct : .struct m.instanceName
      ([.embedded (.pointer (m.entityType t))] ++
        (if m.isReadOnly then [] else [.plain m.daoField (m.daoType t)])) ∈ m.items t :=
    List.mem_append_left _ (List.mem_append_right _ List.mem_cons_self)
  have hfield := Entity.hasField_of_mem_columns t (w := m.visible (.ofTable tb) t) rfl hc
  rw [← (isOf_of_ofTable hm).name] at hfield
  simp only [ModelColumn.ofColumn]
  exact .field hvalue (.embedded hstruct List.mem_cons_self hfield)

/-! ## What the functions compare -/

/-- The search for the value with an identifier. -/
def findByKeyItem (m : Model) : Item :=
  m.collectionMethod ("FindBy" ++ m.primaryKey.field)
    [⟨"id", m.primaryKey.entityType.valueType⟩] [m.instanceType]
    [eachValue
      [.when none (.eq (.field (.ident "v") m.primaryKey.field) (.ident "id")) [.ret [.ident "v"]]],
      .ret [.nil]]

/-- The comparisons of a function. -/
inductive Compared (m : Model) (fn : Function) : Expr × Expr → Prop
  /-- Something may be missing. -/
  | missing (operand : Expr) : Compared m fn (operand, .nil)
  | value {c : ModelColumn} (hc : c ∈ m.columns) (hfilterable : c.filterable = true)
      (hfn : .func fn = m.filterItem c) : Compared m fn (.field (.ident "v") c.field, .ident "c")
  | key (hfn : .func fn = m.findByKeyItem) :
      Compared m fn (.field (.ident "v") m.primaryKey.field, .ident "id")
  | count : Compared m fn (valueCount, .int 0)
  | length {name : String} {params : List Param} {results : List TypeRef} {body : List Stmt}
      (hfn : .func fn = m.collectionMethod name params results body) :
      Compared m fn (.method (.ident "i") "Len" [], .int 0)

@[simp] theorem comparisons_values : values.comparisons = [] := rfl

@[simp] theorem comparisons_valueCount : valueCount.comparisons = [] := by simp [valueCount]

@[simp] theorem comparisons_newCollection : m.newCollection.comparisons = [] := by
  simp [newCollection]

@[simp] theorem comparisons_eachValue (body : List Stmt) :
    (eachValue body).comparisons = body.flatMap Stmt.comparisons := by
  simp [eachValue]

@[simp] theorem comparisons_addValue : addValue.comparisons = [] := by
  simp [addValue, Expr.method]

@[simp] theorem comparisons_sortedValue (c : ModelColumn) (position : String) :
    (sortedValue c position).comparisons = [] := by
  simp [sortedValue]

/-- Every comparison of the function is one of these. -/
def ComparesOnly (m : Model) (fn : Function) : Prop :=
  ∀ operands ∈ fn.comparisons, m.Compared fn operands

theorem comparesOnly_forwardItem {name : String} {args : List FinderArg} {many : Bool}
    (h : .func fn = m.forwardItem t name args many) : m.ComparesOnly fn := by
  cases h
  intro operands hoperands
  rw [Function.comparisons_eq] at hoperands
  unfold wrapBody at hoperands
  cases many <;>
    simp [Expr.method, Expr.eq, Expr.compared?, List.flatMap_map] at hoperands
  · rcases hoperands with rfl | rfl <;> exact .missing _
  · obtain rfl := hoperands
    exact .missing _

theorem comparesOnly_modelItems (h : .func fn ∈ m.modelItems t) : m.ComparesOnly fn := by
  unfold modelItems at h
  rcases List.mem_append.mp h with h | hlookup
  · rcases List.mem_append.mp h with hfixed | hall
    · intro operands hoperands
      rw [Function.comparisons_eq] at hoperands
      simp only [List.mem_cons, List.not_mem_nil, or_false] at hfixed
      rcases hfixed with hitem | hitem | hitem | hitem
      · cases hitem
      · cases hitem
        simp [Expr.addr] at hoperands
      · cases hitem
        cases hreadOnly : m.isReadOnly <;> simp [hreadOnly, Expr.addr] at hoperands
      · cases hitem
        simp [Expr.method] at hoperands
    · split at hall
      · exact comparesOnly_forwardItem (List.mem_singleton.mp hall)
      · cases hall
  · obtain ⟨f, _, hitem⟩ := List.mem_map.mp hlookup
    exact comparesOnly_forwardItem hitem.symm

theorem comparesOnly_instanceItems (h : .func fn ∈ m.instanceItems t) : m.ComparesOnly fn := by
  rcases mem_instanceItems h with hnone | ⟨_, name, _, hitem⟩
  · cases hnone
  · cases hitem
    intro operands hoperands
    rw [Function.comparisons_eq] at hoperands
    simp [Expr.method, Expr.eq, Expr.compared?] at hoperands
    obtain rfl := hoperands
    exact .missing _

theorem comparesOnly_fixedMethods (h : .func fn ∈ m.fixedMethods t) : m.ComparesOnly fn := by
  intro operands hoperands
  rw [Function.comparisons_eq] at hoperands
  simp only [fixedMethods, List.mem_cons, List.not_mem_nil, or_false] at h
  rcases h with h | h | h | h | h | h | h | h | h
  · cases h
    simp at hoperands
  · have hfn := h
    cases h
    simp [Expr.eq, Expr.compared?] at hoperands
    obtain rfl := hoperands
    exact .key hfn
  · cases h
    simp [collect] at hoperands
  · cases h
    simp at hoperands
  · cases h
    simp at hoperands
    obtain rfl := hoperands
    exact .missing _
  · cases h
    simp [Expr.eq, Expr.compared?] at hoperands
    obtain rfl := hoperands
    exact .count
  · cases h
    simp [Expr.or, Expr.compared?] at hoperands
  · cases h
    simp at hoperands
  · have hfn := h
    cases h
    simp [Expr.eq, Expr.compared?, Expr.method] at hoperands
    obtain rfl := hoperands
    exact .length hfn

theorem comparesOnly_columnItems {c : ModelColumn} (hc : c ∈ m.columns)
    (h : .func fn ∈ m.columnItems c) : m.ComparesOnly fn := by
  intro operands hoperands
  rw [Function.comparisons_eq] at hoperands
  simp only [columnItems, List.mem_append, List.mem_ite_nil_right, List.mem_singleton,
    List.mem_map] at h
  rcases h with (⟨hfilterable, h⟩ | ⟨order, _, h⟩) | h
  · have hfn := h
    cases h
    unfold matchesValue at hoperands
    split at hoperands
    · simp [collect, Expr.and, Expr.ne, Expr.compared?, Expr.method, Expr.deref] at hoperands
      rcases hoperands with rfl | rfl <;> exact .missing _
    · simp [collect, Expr.eq, Expr.compared?] at hoperands
      obtain rfl := hoperands
      exact .value hc hfilterable hfn
  · cases h
    cases order <;>
      simp [collect, Expr.method, Expr.deref, Expr.and, Expr.not, Expr.compared?] at hoperands
  · cases h
    simp [Expr.method] at hoperands

theorem comparesOnly_collectionItems (h : .func fn ∈ m.collectionItems t) :
    m.ComparesOnly fn := by
  unfold collectionItems at h
  rcases List.mem_append.mp h with h | hsave
  · rcases List.mem_append.mp h with h | hcolumns
    · rcases List.mem_append.mp h with htypes | hmethod
      · obtain rfl := Item.func.inj (show Item.func fn = .free _ _ by simpa using htypes)
        intro operands hoperands
        simp [Function.comparisons_eq, Expr.addr] at hoperands
      · exact comparesOnly_fixedMethods hmethod
    · obtain ⟨c, hc, hitem⟩ := List.mem_flatMap.mp hcolumns
      exact comparesOnly_columnItems hc hitem
  · split at hsave
    · cases hsave
    · cases List.mem_singleton.mp hsave
      intro operands hoperands
      simp [Function.comparisons_eq, Expr.method] at hoperands

theorem comparesOnly_of_mem_functions (h : fn ∈ (m.source t).functions) : m.ComparesOnly fn := by
  rcases List.mem_append.mp (SourceFile.mem_functions.mp h) with h | hcollection
  · rcases List.mem_append.mp h with hmodel | hinstance
    · exact comparesOnly_modelItems hmodel
    · exact comparesOnly_instanceItems hinstance
  · exact comparesOnly_collectionItems hcollection

/-! ## Operands that can be compared -/

/-- The method that gives the number of values. -/
def lenMethod (m : Model) : Function :=
  ⟨some ⟨"i", m.collectionType⟩, ⟨"Len", [], [.named "int"]⟩, [.ret [valueCount]]⟩

theorem lenMethod_mem_items : .func m.lenMethod ∈ m.items t := by
  have hmem : .func m.lenMethod ∈ m.fixedMethods t := by
    simp [fixedMethods, collectionMethod, Item.method, lenMethod]
  exact List.mem_append_right _ (List.mem_append_left _ (List.mem_append_left _
    (List.mem_append_right _ hmem)))

/-- The search by identifier is all that can compare what cannot be compared. -/
theorem admits_of_compared (hm : ofTable tb = .ok m) {operands : Expr × Expr}
    (h : m.Compared fn operands) (hkey : .func fn ≠ m.findByKeyItem) :
    (m.visible (.ofTable tb) t).Admits fn operands := by
  obtain ⟨key, _, _, hcolumns⟩ := exists_primaryKey hm
  cases h with
  | missing operand => exact .inr (.inl rfl)
  | @value c hc hfilterable hfn =>
    rw [hcolumns] at hc
    obtain ⟨column, hcolumn, rfl⟩ := List.mem_map.mp hc
    have hvalue := variableType_value (t := t) (.ofTable tb) hfn
      (List.mem_append_left _ (List.mem_cons_of_mem _ List.mem_cons_self))
    have hparam : (⟨"c", column.entityType.valueType⟩ : Param) ∈ fn.signature.params := by
      cases hfn
      exact List.mem_cons_self
    have hcomparable : column.entityType.valueType.isComparable = true := by
      rw [isComparable_valueType]
      exact hfilterable
    have hoperand := operandType_value hm hcolumn hvalue
    exact .inr (.inr ⟨_, hoperand, .var (.param hparam), hcomparable⟩)
  | key hfn => exact absurd hfn hkey
  | count => exact .inr (.inr ⟨_, .length _, .number 0 (by decide), rfl⟩)
  | length hfn =>
    have hreceiver : fn.receiver = some ⟨"i", m.collectionType⟩ := by
      cases hfn
      rfl
    have hlen : (m.visible (.ofTable tb) t).OperandType fn
        (.method (.ident "i") m.lenMethod.signature.name []) (.named "int") :=
      .method (.receiver hreceiver) lenMethod_mem_items rfl rfl
    exact .inr (.inr ⟨_, hlen, .number 0 (by decide), rfl⟩)

theorem findByKeyItem_mem_items : m.findByKeyItem ∈ m.items t :=
  List.mem_append_right _ (List.mem_append_left _ (List.mem_append_left _
    (List.mem_append_right _ (List.mem_cons_of_mem _ List.mem_cons_self))))

/-- The variable `id` in the search by identifier is its parameter. -/
theorem variableType_id {w : Visible} (hfn : .func fn = m.findByKeyItem) {type : TypeRef}
    (h : w.VariableType fn "id" type) : type = m.primaryKey.entityType.valueType := by
  cases hfn
  cases h with
  | receiver h => simp at h
  | param h => simpa using h
  | made h => simp [eachValue] at h
  | element h => simp [eachValue] at h

theorem compares_findByKeyItem_iff (hm : ofTable tb = .ok m) (hfn : .func fn = m.findByKeyItem) :
    (m.visible (.ofTable tb) t).Compares fn ↔ m.primaryKey.entityType.isComparable = true := by
  have hcomparisons :
      fn.comparisons = [(.field (.ident "v") m.primaryKey.field, .ident "id")] := by
    cases hfn
    simp [Function.comparisons_eq, Expr.eq, Expr.compared?]
  rw [Visible.Compares, hcomparisons, List.forall_mem_singleton, ← isComparable_valueType]
  constructor
  · rintro (hnil | hnil | ⟨type, _, hid, hcomparable⟩)
    · cases hnil
    · cases hnil
    · cases hid with
      | var hid => rwa [← variableType_id hfn hid]
      | flag h => simp at h
  · intro hcomparable
    obtain ⟨key, hkey, hprimary, _⟩ := exists_primaryKey hm
    have hvalue := variableType_value (t := t) (.ofTable tb) hfn List.mem_cons_self
    have hparam : (⟨"id", m.primaryKey.entityType.valueType⟩ : Param) ∈ fn.signature.params := by
      cases hfn
      exact List.mem_cons_self
    have hoperand := operandType_value hm (List.mem_of_find?_eq_some hkey) hvalue
    rw [hprimary] at hparam hcomparable ⊢
    exact .inr (.inr ⟨_, hoperand, .var (.param hparam), hcomparable⟩)

theorem compares_of_mem_functions (hm : ofTable tb = .ok m) (h : fn ∈ (m.source t).functions)
    (hkey : .func fn ≠ m.findByKeyItem) : (m.visible (.ofTable tb) t).Compares fn :=
  fun operands hoperands =>
    admits_of_compared hm (comparesOnly_of_mem_functions h operands hoperands) hkey

end Model

/-! ## The files of a table -/

namespace Declaration

open Sql

/-- Entity and data access of an accepted table compare only what can be compared, and so does its
model but for the search by identifier, which compares the identifiers themselves. -/
theorem ofCreate_compares {create : CreateTable} {tb : Table} (hk : KeysListColumns create)
    (h : Table.ofCreate create = .ok tb) (t : Target) :
    ∃ d m key, Dao.ofTable tb = .ok d ∧ Model.ofTable tb = .ok m ∧
      tb.primaryKeyColumn? = some key ∧
      (∀ fn ∈ ((Entity.ofTable tb).source t).functions,
        ((Entity.ofTable tb).visible t).Compares fn) ∧
      (∀ fn ∈ (d.source t).functions, (d.visible (.ofTable tb) t).Compares fn) ∧
      (∀ fn ∈ (m.source t).functions, .func fn ≠ m.findByKeyItem →
        (m.visible (.ofTable tb) t).Compares fn) ∧
      ((∀ fn ∈ (m.source t).functions, (m.visible (.ofTable tb) t).Compares fn) ↔
        key.entityType.isComparable = true) := by
  obtain ⟨_, _, _, ⟨d, hd⟩, m, hm⟩ := ofCreate_valid hk h
  obtain ⟨key, hof⟩ := Dao.exists_isOf hd
  obtain ⟨key', hkey', hprimary, _⟩ := Model.exists_primaryKey hm
  obtain rfl := Option.some.inj (hof.identifier.symm.trans hkey')
  refine ⟨d, m, key, hd, hm, hkey', fun _ => Entity.compares_of_mem_functions _ t,
    fun _ => Dao.compares_of_mem_functions t hof, fun _ => Model.compares_of_mem_functions hm, ?_⟩
  have htype : m.primaryKey.entityType = key.entityType := by rw [hprimary]; rfl
  rw [← htype]
  constructor
  · intro hall
    have hmem : _ ∈ (m.source t).functions :=
      SourceFile.mem_functions.mpr Model.findByKeyItem_mem_items
    exact (Model.compares_findByKeyItem_iff hm rfl).mp (hall _ hmem)
  · intro hcomparable fn hfn
    by_cases hitem : .func fn = m.findByKeyItem
    · exact (Model.compares_findByKeyItem_iff hm hitem).mpr hcomparable
    · exact Model.compares_of_mem_functions hm hfn hitem

/-- The keys of items are numbers, so everything can be compared. -/
theorem userItems_compares :
    KeysListColumns userItems ∧ Table.ofCreate userItems = .ok userItemsTable ∧
      ∃ d m key, Dao.ofTable userItemsTable = .ok d ∧ Model.ofTable userItemsTable = .ok m ∧
        userItemsTable.primaryKeyColumn? = some key ∧ key.entityType = .uint64 ∧
        (∀ fn ∈ (d.source (.ofModule "example")).functions,
          (d.visible (.ofTable userItemsTable) (.ofModule "example")).Compares fn) ∧
        ∀ fn ∈ (m.source (.ofModule "example")).functions,
          (m.visible (.ofTable userItemsTable) (.ofModule "example")).Compares fn := by
  have hk : KeysListColumns userItems := by
    simp [KeysListColumns, userItems, ListsColumns]
  obtain ⟨d, m, key, hd, hm, hkey, _, hdao, _, hmodel⟩ :=
    ofCreate_compares hk ofCreate_userItems (.ofModule "example")
  have htype : key.entityType = .uint64 := by
    obtain rfl := Option.some.inj hkey
    rfl
  exact ⟨hk, ofCreate_userItems, d, m, key, hd, hm, hkey, htype, hdao,
    hmodel.mpr (by rw [htype]; rfl)⟩

/-- Items with bytes as their key. -/
def binaryItems : CreateTable :=
  { name := [⟨"items", none⟩]
    columns := [⟨⟨"id", none⟩, .sized "BINARY" (some 16) "", [.notNull]⟩]
    constraints := [.primaryKey [⟨"id", none⟩]] }

def binaryItemsTable : Table :=
  { name := "items"
    columns := [⟨"id", "binary", .bytes, 16, false, false, true, none, true, [], []⟩]
    indexes := [⟨"PRIMARY", true, true, ["id"]⟩]
    isReadOnly := true }

/-- The search by identifier compares sequences of bytes. -/
theorem binaryItems_comparesBytes :
    Table.ofCreate binaryItems = .ok binaryItemsTable ∧
      ∃ m, Model.ofTable binaryItemsTable = .ok m ∧
        ∃ fn ∈ (m.source (.ofModule "example")).functions,
          fn.signature.name = "FindByID" ∧
            ⟨"id", .slice (.named "byte")⟩ ∈ fn.signature.params ∧
            (.field (.ident "v") "ID", .ident "id") ∈ fn.comparisons ∧
            ¬ (m.visible (.ofTable binaryItemsTable) (.ofModule "example")).Compares fn := by
  obtain ⟨m, hm⟩ : ∃ m, Model.ofTable binaryItemsTable = .ok m := ⟨_, rfl⟩
  obtain ⟨key, hkey, hprimary, _⟩ := Model.exists_primaryKey hm
  obtain rfl := Option.some.inj hkey
  have hfield : m.primaryKey.field = "ID" := by
    rw [hprimary, ModelColumn.ofColumn]
    decide +kernel
  have htype : m.primaryKey.entityType = .bytes := by
    rw [hprimary]
    rfl
  refine ⟨Checks.eq_ok_of_toOption (by decide +kernel), m, hm, _,
    SourceFile.mem_functions.mpr Model.findByKeyItem_mem_items, ?_, ?_, ?_, ?_⟩
  · rw [hfield]
    rfl
  · rw [htype]
    exact List.mem_cons_self
  · simp [Function.comparisons_eq, Expr.eq, Expr.compared?, hfield]
  · rw [Model.compares_findByKeyItem_iff hm rfl, htype]
    decide

end Declaration

end Tablewright
