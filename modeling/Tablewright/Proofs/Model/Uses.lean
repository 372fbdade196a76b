import Tablewright.Proofs.Code.Uses
import Tablewright.Proofs.Model.Members
import Tablewright.Proofs.Model.Scope
import Tablewright.Proofs.Model.Types

/-! What the helpers of a column go through: the collection, a new collection, a wrapper of an
entity, and what a wrapper gives for the column. -/

namespace Tablewright

open Code

namespace Model

variable {m : Model} {e : Entity} {t : Target} {c : ModelColumn} {fn : Function}

/-- The expression is a wrapper of an entity: a parameter, a value of the collection that is the
receiver, or a value of a new collection. -/
inductive Wrapper (m : Model) : Scope → Expr → Prop
  | param {scope below : Scope} {x : String} :
    scope.find? x = some (.typed m.instanceType, below) → Wrapper m scope (.ident x)
  | element {scope below outer : Scope} {x : String} :
    scope.find? x = some (.element values, below) →
      below.find? "i" = some (.typed m.collectionType, outer) → Wrapper m scope (.ident x)
  | sorted {scope below : Scope} {x : String} {position : Expr} :
    scope.find? x = some (.result m.newCollection 0, below) →
      below.find? m.newCollectionName = none →
      Wrapper m scope (.index (.field (.ident x) "values") position)

/-- What a helper of the column goes through. The value of the column is tested before, unless the
helper sorts points in time. -/
inductive ColumnUse (m : Model) (c : ModelColumn) (order : Option SortOrder) : Use → Prop
  | collection {scope below : Scope} {known : List Expr} {x : String} {member : Option String} :
    scope.find? x = some (.typed m.collectionType, below) →
      ColumnUse m c order ⟨scope, known, .ident x, member⟩
  | created {scope below : Scope} {known : List Expr} {x : String} {member : Option String} :
    scope.find? x = some (.result m.newCollection 0, below) →
      below.find? m.newCollectionName = none → ColumnUse m c order ⟨scope, known, .ident x, member⟩
  | wrapper {scope : Scope} {known : List Expr} {e : Expr} :
    m.Wrapper scope e → ColumnUse m c order ⟨scope, known, e, some c.field⟩
  | argument {scope below : Scope} {known : List Expr} {x : String} {member : Option String} :
    scope.find? x = some (.typed c.entityType.valueType, below) → .ident x ∈ known →
      ColumnUse m c order ⟨scope, known, .ident x, member⟩
  | value {scope : Scope} {known : List Expr} {e : Expr} {member : Option String} :
    m.Wrapper scope e → .field e c.field ∈ known ∨ order = some .chronological →
      ColumnUse m c order ⟨scope, known, .field e c.field, member⟩

/-- A helper of the column, the search by identifier included. -/
def IsHelper (m : Model) (c : ModelColumn) (fn : Function) : Prop :=
  .func fn ∈ m.columnItems c ∨ m.primaryKey = c ∧ .func fn = m.findByKeyItem

/-! ## The fragments -/

section Fragments

variable {scope : Scope} {known : List Expr}

@[simp] theorem uses_newCollection : m.newCollection.uses scope known = [] := by
  simp [newCollection]

@[simp] theorem uses_values :
    values.uses scope known = [⟨scope, known, .ident "i", some "values"⟩] := rfl

@[simp] theorem uses_valueCount :
    valueCount.uses scope known = [⟨scope, known, .ident "i", some "values"⟩] := rfl

@[simp] theorem uses_eachValue (body : List Stmt) :
    (eachValue body).uses scope known = ⟨scope, known, .ident "i", some "values"⟩ ::
      Stmt.usesOf ([("v", .element values)] :: scope) [] body := by
  simp [eachValue]

@[simp] theorem after_eachValue (body : List Stmt) : scope.after (eachValue body) = scope := rfl

@[simp] theorem uses_addValue :
    addValue.uses scope known = [⟨scope, known, .ident "s", some "Add"⟩] := by
  simp [addValue]

/-- No variable has the name of the function that makes a collection. -/
theorem find?_newCollectionName
    (h : ∀ x ∈ scope.flatten.map Prod.fst, x.toList.head? ≠ some 'N') :
    scope.find? m.newCollectionName = none := by
  refine Scope.find?_eq_none fun hmem => h _ hmem ?_
  simp [newCollectionName]

end Fragments

/-! ## The helpers -/

/-- The scope of a method of the collection. -/
def methodScope (m : Model) (params : List (String × TypeRef)) : Scope :=
  [("i", .typed m.collectionType) :: params.map fun (x, type) => (x, .typed type)]

/-- The scope of a method behind the new collection. -/
def collecting (m : Model) (params : List (String × TypeRef)) : Scope :=
  [("s", .result m.newCollection 0)] :: m.methodScope params

/-- The scope in which a sort compares two values. -/
def comparing (m : Model) : Scope :=
  [("i", .typed (.named "int")), ("j", .typed (.named "int"))] ::
    m.collecting [("isDesc", .named "bool")]

section Uses

variable {order : SortOrder}

theorem uses_filterItem (h : .func fn = m.filterItem c) :
    let scope := m.collecting [("c", c.entityType.valueType)]
    let each := [("v", .element values)] :: scope
    fn.uses = ⟨scope, [], .ident "i", some "values"⟩ :: (matchesValue c).uses each [] ++
      [⟨each, (matchesValue c).tested, .ident "s", some "Add"⟩] := by
  cases h
  simp [Function.uses, Function.scope, collect, collecting, methodScope]

theorem uses_sortItem (h : .func fn = m.sortItem c order) :
    let scope := m.collecting [("isDesc", .named "bool")]
    fn.uses = [⟨scope, [], .ident "i", some "values"⟩,
      ⟨[("v", .element values)] :: scope, [], .ident "s", some "Add"⟩,
      ⟨scope, [], .ident "s", some "values"⟩] ++
        ((comesBefore c order).1.uses m.comparing [] ++
          (comesBefore c order).2.uses m.comparing []) := by
  cases h
  simp [Function.uses, Function.scope, collect, comparing, collecting, methodScope, comesBefore]

theorem uses_pluckItem (h : .func fn = m.pluckItem c) :
    let scope := [("s", .result (.slice c.entityType.valueType []) 0)] :: m.methodScope []
    fn.uses = [⟨scope, [], .ident "i", some "Each"⟩,
      ⟨[("v", .typed m.instanceType)] :: scope, [], .ident "v", some c.field⟩] := by
  cases h
  simp [Function.uses, Function.scope, methodScope]

theorem uses_findByKeyItem (h : .func fn = m.findByKeyItem) :
    let scope := m.methodScope [("id", m.primaryKey.entityType.valueType)]
    fn.uses = [⟨scope, [], .ident "i", some "values"⟩,
      ⟨[("v", .element values)] :: scope, [], .ident "v", some m.primaryKey.field⟩] := by
  cases h
  simp [Function.uses, Function.scope, methodScope]

end Uses

/-- The function that makes a collection is not hidden by the variables of a sort. -/
theorem find?_sorting_newCollectionName :
    (m.methodScope [("isDesc", .named "bool")]).find? m.newCollectionName = none :=
  find?_newCollectionName (by simp [methodScope])

theorem columnUse_matchesValue {scope below : Scope} (hv : m.Wrapper scope (.ident "v"))
    (hc : scope.find? "c" = some (.typed c.entityType.valueType, below)) :
    ∀ use ∈ (matchesValue c).uses scope [], m.ColumnUse c none use := by
  by_cases htime : c.entityType = .timestamp
  · have huses : (matchesValue c).uses scope [] =
        [⟨scope, [], .ident "v", some c.field⟩,
          ⟨scope, [.field (.ident "v") c.field, .ident "c"], .field (.ident "v") c.field,
            some "Equal"⟩,
          ⟨scope, [.field (.ident "v") c.field, .ident "c"], .ident "v", some c.field⟩,
          ⟨scope, [.field (.ident "v") c.field, .ident "c"], .ident "c", none⟩] := by
      simp [matchesValue, htime]
    rw [huses]
    simp only [List.forall_mem_cons]
    exact ⟨.wrapper hv, .value hv (.inl List.mem_cons_self), .wrapper hv,
      .argument hc (List.mem_cons_of_mem _ List.mem_cons_self), nofun⟩
  · have huses : (matchesValue c).uses scope [] = [⟨scope, [], .ident "v", some c.field⟩] := by
      simp [matchesValue, htime]
    rw [huses, List.forall_mem_singleton]
    exact .wrapper hv

theorem columnUse_filterItem (h : .func fn = m.filterItem c) :
    ∀ use ∈ fn.uses, m.ColumnUse c none use := by
  have hnew : (m.methodScope [("c", c.entityType.valueType)]).find? m.newCollectionName = none :=
    find?_newCollectionName (by simp [methodScope])
  rw [uses_filterItem h]
  simp only [List.cons_append, List.forall_mem_cons, List.forall_mem_append]
  exact ⟨.collection rfl, columnUse_matchesValue (.element rfl rfl) rfl, .created rfl hnew, nofun⟩

theorem columnUse_sortedValue {order : Option SortOrder} {scope below : Scope} {known : List Expr}
    (hsorted : scope.find? "s" = some (.result m.newCollection 0, below))
    (hnew : below.find? m.newCollectionName = none) (position : String) :
    ∀ use ∈ (sortedValue c position).uses scope known, m.ColumnUse c order use := by
  have huses : (sortedValue c position).uses scope known =
      [⟨scope, known, .index (.field (.ident "s") "values") (.ident position), some c.field⟩,
        ⟨scope, known, .ident "s", some "values"⟩] := rfl
  rw [huses]
  simp only [List.forall_mem_cons]
  exact ⟨.wrapper (.sorted hsorted hnew), .created hsorted hnew, nofun⟩

theorem columnUse_comesBefore {order : SortOrder} {scope below : Scope}
    (hsorted : scope.find? "s" = some (.result m.newCollection 0, below))
    (hnew : below.find? m.newCollectionName = none) :
    ∀ use ∈ (comesBefore c order).1.uses scope [] ++ (comesBefore c order).2.uses scope [],
      m.ColumnUse c (some order) use := by
  have hvalue : ∀ position known, ∀ use ∈ (sortedValue c position).uses scope known,
      m.ColumnUse c (some order) use :=
    fun position known => columnUse_sortedValue hsorted hnew position
  have hpair : ∀ known, ∀ use ∈ (sortedValue c "i").uses scope [] ++
      (sortedValue c "j").uses scope known, m.ColumnUse c (some order) use :=
    fun known => List.forall_mem_append.mpr ⟨hvalue "i" [], hvalue "j" known⟩
  rw [List.forall_mem_append]
  cases order with
  | natural => exact ⟨hpair [], hpair []⟩
  | chronological =>
    have htime : ∀ position member, m.ColumnUse c (some .chronological)
        ⟨scope, [], sortedValue c position, member⟩ :=
      fun position member => .value (.sorted hsorted hnew) (.inr rfl)
    have huses : ∀ name,
        ((sortedValue c "i").method name [(sortedValue c "j").deref]).uses scope [] =
          ⟨scope, [], sortedValue c "i", some name⟩ :: (sortedValue c "i").uses scope [] ++
            ⟨scope, [], sortedValue c "j", none⟩ :: (sortedValue c "j").uses scope [] := by
      simp
    have hcompare : ∀ name, ∀ use ∈ ((sortedValue c "i").method name
        [(sortedValue c "j").deref]).uses scope [], m.ColumnUse c (some .chronological) use := by
      intro name
      rw [huses, List.forall_mem_append, List.forall_mem_cons, List.forall_mem_cons]
      exact ⟨⟨htime "i" name, hvalue "i" []⟩, htime "j" none, hvalue "j" []⟩
    exact ⟨hcompare "After", hcompare "Before"⟩
  | boolean => exact ⟨hpair [], hpair []⟩

theorem columnUse_sortItem {order : SortOrder} (h : .func fn = m.sortItem c order) :
    ∀ use ∈ fn.uses, m.ColumnUse c (some order) use := by
  have hnew := find?_sorting_newCollectionName (m := m)
  rw [uses_sortItem h]
  simp only [List.forall_mem_append, List.forall_mem_cons]
  exact ⟨⟨.collection rfl, .created rfl hnew, .created rfl hnew, nofun⟩,
    List.forall_mem_append.mp (columnUse_comesBefore rfl hnew)⟩

theorem columnUse_pluckItem (h : .func fn = m.pluckItem c) :
    ∀ use ∈ fn.uses, m.ColumnUse c none use := by
  rw [uses_pluckItem h]
  simp only [List.forall_mem_cons]
  exact ⟨.collection rfl, .wrapper (.param rfl), nofun⟩

theorem columnUse_findByKeyItem (h : .func fn = m.findByKeyItem) :
    ∀ use ∈ fn.uses, m.ColumnUse m.primaryKey none use := by
  rw [uses_findByKeyItem h]
  simp only [List.forall_mem_cons]
  exact ⟨.collection rfl, .wrapper (.element rfl rfl), nofun⟩

/-- The order by which a helper sorts, if it does, is what its uses depend on. -/
theorem columnUse_of_isHelper (h : m.IsHelper c fn) :
    ∃ order, (∀ use ∈ fn.uses, m.ColumnUse c order use) ∧
      ∀ o, order = some o → c.sort = some o ∧ .func fn = m.sortItem c o := by
  rcases h with hcolumn | ⟨rfl, hkey⟩
  · rcases columnItems_cases hcolumn with ⟨_, hfilter⟩ | ⟨order, horder, hsort⟩ | hpluck
    · exact ⟨none, columnUse_filterItem hfilter, nofun⟩
    · refine ⟨some order, columnUse_sortItem hsort, ?_⟩
      rintro _ ⟨⟩
      exact ⟨horder, hsort⟩
    · exact ⟨none, columnUse_pluckItem hpluck, nofun⟩
  · exact ⟨none, columnUse_findByKeyItem hkey, nofun⟩

/-! ### The column is selected -/

/-- One of the uses selects the field from a wrapper. -/
def SelectsFrom (m : Model) (field : String) (uses : List Use) : Prop :=
  ∃ use ∈ uses, m.Wrapper use.scope use.target ∧ use.member = some field

theorem SelectsFrom.mono {field : String} {uses more : List Use} (h : m.SelectsFrom field uses)
    (hsub : ∀ use ∈ uses, use ∈ more) : m.SelectsFrom field more := by
  obtain ⟨use, hmem, huse⟩ := h
  exact ⟨use, hsub use hmem, huse⟩

theorem selects_field (scope : Scope) {e : Expr} (h : m.Wrapper scope e) (field : String) :
    m.SelectsFrom field ((Expr.field e field).uses scope []) :=
  ⟨_, List.mem_cons_self, h, rfl⟩

theorem selects_matchesValue (scope : Scope) (h : m.Wrapper scope (.ident "v")) :
    m.SelectsFrom c.field ((matchesValue c).uses scope []) := by
  refine (selects_field scope h c.field).mono fun use huse => ?_
  unfold matchesValue
  split
  · simp only [Expr.uses_and, Expr.uses_ne, List.mem_append]
    exact .inl (.inl (.inl huse))
  · simp only [Expr.uses_eq, List.mem_append]
    exact .inl huse

theorem selects_comesBefore (scope : Scope) {below : Scope} (order : SortOrder)
    (hsorted : scope.find? "s" = some (.result m.newCollection 0, below))
    (hnew : below.find? m.newCollectionName = none) :
    m.SelectsFrom c.field ((comesBefore c order).1.uses scope []) := by
  have hfirst : m.SelectsFrom c.field ((sortedValue c "i").uses scope []) :=
    selects_field scope (.sorted hsorted hnew) c.field
  refine hfirst.mono fun use huse => ?_
  cases order with
  | natural => exact List.mem_append_left _ huse
  | chronological => exact List.mem_append_left _ (List.mem_cons_of_mem _ huse)
  | boolean =>
    simp only [comesBefore, Expr.uses_and, List.mem_append]
    exact .inl huse

theorem selects_of_isHelper (h : m.IsHelper c fn) : m.SelectsFrom c.field fn.uses := by
  rcases h with hcolumn | ⟨rfl, hkey⟩
  · rcases columnItems_cases hcolumn with ⟨_, hfilter⟩ | ⟨order, _, hsort⟩ | hpluck
    · rw [uses_filterItem hfilter]
      exact (selects_matchesValue _ (.element rfl rfl)).mono fun use huse =>
        List.mem_append_left _ (List.mem_cons_of_mem _ huse)
    · rw [uses_sortItem hsort]
      exact (selects_comesBefore _ order rfl find?_sorting_newCollectionName).mono fun use huse =>
        List.mem_append_right _ (List.mem_append_left _ huse)
    · rw [uses_pluckItem hpluck]
      exact ⟨_, List.mem_cons_of_mem _ List.mem_cons_self, .param rfl, rfl⟩
  · rw [uses_findByKeyItem hkey]
    exact ⟨_, List.mem_cons_of_mem _ List.mem_cons_self, .element rfl rfl, rfl⟩

end Model

end Tablewright
