import Tablewright.Proofs.Model.Forwarding

/-! The types that the file of a model declares: the model, the wrapper of an entity and the
collection. Wrapper and collection have one name if entity and collection have. -/

namespace Tablewright

open Code

namespace Model

/-- The fields of the wrapper of an entity. -/
def instanceFields (m : Model) (t : Target) : List Field :=
  [.embedded (.pointer (m.entityType t))] ++
    (if m.isReadOnly then [] else [.plain m.daoField (m.daoType t)])

def collectionFields (m : Model) : List Field := [.plain "values" (.slice m.instanceType)]

/-- The function that makes an empty collection. -/
def collectionMaker (m : Model) : Function :=
  ⟨none, ⟨"New" ++ m.collectionInstanceName, [], [m.collectionType]⟩,
    [.ret [.addr (.composite (.named m.collectionInstanceName)
      [("values", .slice m.instanceType [])])]]⟩

variable {m : Model} {t : Target} {fn : Function}

theorem collectionInstanceName_eq_iff :
    m.collectionInstanceName = m.instanceName ↔ m.name = m.collectionName := by
  unfold collectionInstanceName instanceName
  simp [← String.toList_inj, eq_comm]

theorem instanceFields_mem_items : .struct m.instanceName (m.instanceFields t) ∈ m.items t :=
  List.mem_append_left _ (List.mem_append_right _ List.mem_cons_self)

theorem collectionFields_mem_items :
    .struct m.collectionInstanceName m.collectionFields ∈ m.items t :=
  List.mem_append_right _ List.mem_cons_self

theorem collectionMaker_mem_items : .func m.collectionMaker ∈ m.items t :=
  List.mem_append_right _ (List.mem_cons_of_mem _ List.mem_cons_self)

/-! ## Declarations of the collection -/

theorem columnItems_cases {c : ModelColumn} {item : Item} (h : item ∈ m.columnItems c) :
    (c.filterable = true ∧ item = m.filterItem c) ∨
      (∃ order, c.sort = some order ∧ item = m.sortItem c order) ∨ item = m.pluckItem c := by
  simp only [columnItems, List.mem_append, List.mem_ite_nil_right, List.mem_singleton,
    List.mem_map, Option.mem_toList] at h
  rcases h with (hfilter | ⟨order, horder, rfl⟩) | rfl
  · exact .inl hfilter
  · exact .inr (.inl ⟨order, horder, rfl⟩)
  · exact .inr (.inr rfl)

/-- The collection is a struct with a constructor, and everything else is its methods. -/
theorem collectionItems_cases {item : Item} (h : item ∈ m.collectionItems t) :
    item = .struct m.collectionInstanceName m.collectionFields ∨
      item = .func m.collectionMaker ∨
      ∃ name params results body, item = m.collectionMethod name params results body := by
  unfold collectionItems at h
  rcases List.mem_append.mp h with h | hsave
  · rcases List.mem_append.mp h with h | hcolumns
    · rcases List.mem_append.mp h with htypes | hfixed
      · rcases List.mem_pair.mp htypes with rfl | rfl
        · exact .inl rfl
        · exact .inr (.inl rfl)
      · simp only [fixedMethods, List.mem_cons, List.not_mem_nil, or_false] at hfixed
        rcases hfixed with rfl | rfl | rfl | rfl | rfl | rfl | rfl | rfl | rfl <;>
          exact .inr (.inr ⟨_, _, _, _, rfl⟩)
    · obtain ⟨c, _, hc⟩ := List.mem_flatMap.mp hcolumns
      rcases columnItems_cases hc with ⟨_, rfl⟩ | ⟨order, _, rfl⟩ | rfl <;>
        exact .inr (.inr ⟨_, _, _, _, rfl⟩)
  · split at hsave
    · cases hsave
    · obtain rfl := List.mem_singleton.mp hsave
      exact .inr (.inr ⟨_, _, _, _, rfl⟩)

/-! ## Types and their methods -/

/-- The types that are declared. -/
theorem struct_mem_items_iff {name : String} {fields : List Field} :
    .struct name fields ∈ m.items t ↔
      (name = m.implName ∧ fields = [.plain m.daoField (m.daoType t)]) ∨
        (name = m.instanceName ∧ fields = m.instanceFields t) ∨
        (name = m.collectionInstanceName ∧ fields = m.collectionFields) := by
  constructor
  · intro h
    unfold items at h
    rw [List.append_assoc, List.mem_append, List.mem_append] at h
    rcases h with hmodel | hinstance | hcollection
    · refine .inl ?_
      simpa [modelItems, constructorItem, createInstanceItem, createInstancesItem, forwardItem_eq,
        Item.free, Item.method] using hmodel
    · rcases List.mem_append.mp hinstance with hstruct | hmethod
      · cases List.mem_singleton.mp hstruct
        exact .inr (.inl ⟨rfl, rfl⟩)
      · simp [instanceMethod, Item.method] at hmethod
    · rcases collectionItems_cases hcollection with hstruct | hmaker | ⟨_, _, _, _, hmethod⟩
      · cases hstruct
        exact .inr (.inr ⟨rfl, rfl⟩)
      · cases hmaker
      · cases hmethod
  · rintro (⟨rfl, rfl⟩ | ⟨rfl, rfl⟩ | ⟨rfl, rfl⟩)
    · exact List.mem_append_left _ (List.mem_append_left _ List.mem_cons_self)
    · exact instanceFields_mem_items
    · exact collectionFields_mem_items

/-- The methods of the wrapper change rows, or they are those of the collection. -/
theorem isMethodOf_instanceName_iff (h : fn ∈ (m.source t).functions) :
    fn.isMethodOf m.instanceName = true ↔
      (m.isReadOnly = false ∧ ∃ name ∈ ["Save", "Delete"], .func fn = m.instanceMethod t name) ∨
        m.name = m.collectionName ∧ .func fn ∈ m.collectionItems t ∧
          fn.isMethodOf m.collectionInstanceName = true := by
  have hitem : .func fn ∈ m.items t := SourceFile.mem_functions.mp h
  unfold items at hitem
  rw [List.append_assoc, List.mem_append, List.mem_append] at hitem
  constructor
  · intro hfn
    rcases hitem with hmodel | hinstance | hcollection
    · rcases mem_modelItems hmodel with hnone | ⟨_, _, hfree⟩ | ⟨_, _, hmethod⟩
      · cases hnone
      · cases hfree
        cases hfn
      · cases hmethod
        have hname : m.implName = m.instanceName := by
          simpa [Function.isMethodOf, modelReceiver] using hfn
        exact absurd hname.symm (implName_ne m.name)
    · rcases mem_instanceItems hinstance with hnone | hmethod
      · cases hnone
      · exact .inl hmethod
    · have hcollection' := hcollection
      rcases collectionItems_cases hcollection with hstruct | hmaker | ⟨_, _, _, _, hmethod⟩
      · cases hstruct
      · cases hmaker
        cases hfn
      · cases hmethod
        have hname : m.collectionInstanceName = m.instanceName := by
          simpa [Function.isMethodOf, collectionType] using hfn
        exact .inr ⟨collectionInstanceName_eq_iff.mp hname, hcollection',
          by simp [Function.isMethodOf, collectionType]⟩
  · rintro (⟨_, name, _, hmethod⟩ | ⟨hname, _, hfn⟩)
    · cases hmethod
      simp [Function.isMethodOf, instanceType]
    · rwa [collectionInstanceName_eq_iff.mpr hname] at hfn

end Model

end Tablewright
