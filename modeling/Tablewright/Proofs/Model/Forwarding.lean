import Tablewright.Entity.Basic
import Tablewright.Model.Source
import Tablewright.Proofs.Code.Paths
import Tablewright.Proofs.Dao.Methods

/-! How the model reaches the data access. It forwards every lookup to the method of the same name,
with the same parameters, and wraps what that method gives. Saving and deleting go through the
wrapper of one entity. -/

namespace Tablewright

open Code

namespace Model

/-! ## What forwarding is to do -/

/-- The methods of the model that wrap entities. Its other methods forward. -/
def creators : List String := ["createInstance", "createInstances"]

def isForwarding (m : Model) (fn : Function) : Bool :=
  fn.isMethodOf m.implName && !creators.contains fn.signature.name

def forwarding (m : Model) (t : Target) : List Function :=
  (m.source t).functions.filter m.isForwarding

/-- The call of a method of the data access that the model holds, with the parameters in their
order. -/
def daoCall (m : Model) (name : String) (params : List Param) : Expr :=
  .method (.field (.ident "m") m.daoField) name (params.map (.ident ·.name))

/-- The body makes the call, and wraps the entities that it gives. -/
def WrapsMany (t : Target) (call : Expr) (body : List Stmt) : Prop :=
  ∃ x, x ≠ "err" ∧ ∀ es exit, Path body es exit ↔ exit = .returns ∧
    (es = [.define [x, "err"] call, .test failed true, .ret [.nil, t.traceErr]] ∨
      es = [.define [x, "err"] call, .test failed false,
        .ret [.method (.ident "m") "createInstances" [.ident x], .nil]])

/-- The body makes the call, and wraps the entity that it gives, if there is one. -/
def WrapsOne (t : Target) (call : Expr) (body : List Stmt) : Prop :=
  ∃ x, x ≠ "err" ∧ ∀ es exit, Path body es exit ↔ exit = .returns ∧
    (es = [.define [x, "err"] call, .test failed true, .ret [.nil, t.traceErr]] ∨
      es = [.define [x, "err"] call, .test failed false, .test (.eq (.ident x) .nil) true,
        .ret [.nil, .nil]] ∨
      es = [.define [x, "err"] call, .test failed false, .test (.eq (.ident x) .nil) false,
        .ret [.method (.ident "m") "createInstance" [.ident x], .nil]])

/-- A method of the model forwards to the method of the data access with this signature. What it
wraps is what that method gives: many entities, or a pointer to one. -/
structure Forwards (m : Model) (e : Entity) (t : Target) (fn : Function) (s : Signature) :
    Prop where
  receiver : fn.receiver = some ⟨"m", .pointer (.named m.implName)⟩
  name : fn.signature.name = s.name
  params : fn.signature.params.map (·.type) = s.params.map (·.type)
  wraps : WrapsMany t (m.daoCall s.name fn.signature.params) fn.body ∨
    WrapsOne t (m.daoCall s.name fn.signature.params) fn.body
  many : WrapsMany t (m.daoCall s.name fn.signature.params) fn.body ↔
    s.results.head? = some (.qualified (t.packagePath entityPackage) e.collectionName)
  one : WrapsOne t (m.daoCall s.name fn.signature.params) fn.body ↔
    s.results.head? = some (.pointer (.qualified (t.packagePath entityPackage) e.name))

/-- A method of an instance hands its entity to the method of this name of the data access, if it
has one. -/
structure HandsOver (m : Model) (t : Target) (method : String) (fn : Function) : Prop where
  receiver : fn.receiver = some ⟨"i", m.instanceType⟩
  name : fn.signature.name = method
  path : ∀ es exit, Path fn.body es exit ↔ exit = .returns ∧
    (es = [.test (.eq (.field (.ident "i") m.daoField) .nil) true, .ret [.nil]] ∨
      es = [.test (.eq (.field (.ident "i") m.daoField) .nil) false,
        .ret [t.trace (.method (.field (.ident "i") m.daoField) method
          [.field (.ident "i") m.name])]])

/-- Every method of the model forwards to a method of the data access, and every method of the data
access is reached, by forwarding or from an instance. -/
structure ReachesDao (tb : Table) (d : Dao) (m : Model) (t : Target) : Prop where
  /-- The interface is the type of what the model holds. -/
  declared : (d.source t).methods? d.name = some (d.signatures t) ∧
    (m.source t).fields? m.implName =
      some [.plain m.daoField (.qualified (t.packagePath daoPackage) d.name)]
  names : (m.forwarding t).map (·.signature.name) =
    (if tb.convention.isReadOnly then ["FindsAll"] else []) ++ tb.finders.map (·.name)
  forwards : ∀ fn ∈ m.forwarding t, ∃ s,
    (d.signatures t).filter (·.name = fn.signature.name) = [s] ∧
      Forwards m (Entity.ofTable tb) t fn s
  reached : ∀ s ∈ d.signatures t,
    (∃ fn ∈ m.forwarding t, Forwards m (Entity.ofTable tb) t fn s) ∨
      s.name ∈ ["Save", "Delete"] ∧ ∃ fn ∈ (m.source t).functions, HandsOver m t s.name fn
  /-- Tables that are just read have no methods that change rows. -/
  changes : ∀ name ∈ ["Save", "Delete"],
    (name ∈ (d.signatures t).map (·.name) ↔ tb.convention.isReadOnly = false) ∧
    ((∃ fn ∈ (m.source t).functions, HandsOver m t name fn) ↔ tb.convention.isReadOnly = false)

/-- What a model takes from a table. -/
structure IsOf (tb : Table) (m : Model) : Prop where
  name : m.name = Names.entity tb.name
  collectionName : m.collectionName = Names.collection tb.name
  isReadOnly : m.isReadOnly = tb.convention.isReadOnly
  finders : m.finders = tb.finders

theorem isOf_of_ofTable {tb : Table} {m : Model} (h : ofTable tb = .ok m) : IsOf tb m := by
  unfold ofTable at h
  split at h
  · cases h
  · obtain rfl := Except.ok.inj h
    exact ⟨rfl, rfl, rfl, rfl⟩

variable {m : Model} {t : Target} {call : Expr} {es : List Event} {exit : Exit}

/-! ## The paths of the bodies -/

theorem path_wrapMany_iff :
    Path (wrapBody t call true) es exit ↔ exit = .returns ∧
      (es = [.define ["es", "err"] call, .test failed true, .ret [.nil, t.traceErr]] ∨
        es = [.define ["es", "err"] call, .test failed false,
          .ret [.method (.ident "m") "createInstances" [.ident "es"], .nil]]) := by
  show Path [.define ["es", "err"] call, checkErr t [.nil],
    .ret [.method (.ident "m") "createInstances" [.ident "es"], .nil]] es exit ↔ _
  simp only [Path.define_iff, Path.checkErr_iff, Path.ret_iff]
  constructor
  · rintro ⟨_, rfl, ⟨_, rfl, rfl, rfl⟩ | ⟨rfl, rfl⟩⟩
    · exact ⟨rfl, .inr rfl⟩
    · exact ⟨rfl, .inl rfl⟩
  · rintro ⟨rfl, rfl | rfl⟩
    · exact ⟨_, rfl, .inr ⟨rfl, rfl⟩⟩
    · exact ⟨_, rfl, .inl ⟨_, rfl, rfl, rfl⟩⟩

theorem path_wrapOne_iff :
    Path (wrapBody t call false) es exit ↔ exit = .returns ∧
      (es = [.define ["e", "err"] call, .test failed true, .ret [.nil, t.traceErr]] ∨
        es = [.define ["e", "err"] call, .test failed false, .test (.eq (.ident "e") .nil) true,
          .ret [.nil, .nil]] ∨
        es = [.define ["e", "err"] call, .test failed false, .test (.eq (.ident "e") .nil) false,
          .ret [.method (.ident "m") "createInstance" [.ident "e"], .nil]]) := by
  show Path [.define ["e", "err"] call, checkErr t [.nil],
    .when none (.eq (.ident "e") .nil) [.ret [.nil, .nil]],
    .ret [.method (.ident "m") "createInstance" [.ident "e"], .nil]] es exit ↔ _
  rw [Path.define_iff]
  simp only [Path.checkErr_iff, Path.whenRet_iff, Path.ret_iff]
  constructor
  · rintro ⟨_, rfl, ⟨_, rfl, ⟨_, rfl, rfl, rfl⟩ | ⟨rfl, rfl⟩⟩ | ⟨rfl, rfl⟩⟩
    · exact ⟨rfl, .inr (.inr rfl)⟩
    · exact ⟨rfl, .inr (.inl rfl)⟩
    · exact ⟨rfl, .inl rfl⟩
  · rintro ⟨rfl, rfl | rfl | rfl⟩
    · exact ⟨_, rfl, .inr ⟨rfl, rfl⟩⟩
    · exact ⟨_, rfl, .inl ⟨_, rfl, .inr ⟨rfl, rfl⟩⟩⟩
    · exact ⟨_, rfl, .inl ⟨_, rfl, .inl ⟨_, rfl, rfl, rfl⟩⟩⟩

theorem wrapsMany_wrapBody : WrapsMany t call (wrapBody t call true) :=
  ⟨"es", by decide, fun _ _ => path_wrapMany_iff⟩

theorem wrapsOne_wrapBody : WrapsOne t call (wrapBody t call false) :=
  ⟨"e", by decide, fun _ _ => path_wrapOne_iff⟩

/-- A path that finds no entity has a step more than any path that wraps many. -/
theorem not_wrapsOne_of_wrapsMany {call' : Expr} {body : List Stmt}
    (hmany : WrapsMany t call body) : ¬ WrapsOne t call' body := by
  rintro ⟨x, _, hone⟩
  obtain ⟨y, _, hmany⟩ := hmany
  have hpath := (hone _ _).mpr ⟨rfl, .inr (.inl rfl)⟩
  obtain ⟨_, hes | hes⟩ := (hmany _ _).mp hpath
  · cases hes
  · cases hes

theorem path_instanceMethod_iff {dao : Expr} {value : Expr} :
    Path [.when none (.eq dao .nil) [.ret [.nil]], .ret [value]] es exit ↔ exit = .returns ∧
      (es = [.test (.eq dao .nil) true, .ret [.nil]] ∨
        es = [.test (.eq dao .nil) false, .ret [value]]) := by
  simp only [Path.whenRet_iff, Path.ret_iff]
  constructor
  · rintro (⟨_, rfl, rfl, rfl⟩ | ⟨rfl, rfl⟩)
    · exact ⟨rfl, .inr rfl⟩
    · exact ⟨rfl, .inl rfl⟩
  · rintro ⟨rfl, rfl | rfl⟩
    · exact .inr ⟨rfl, rfl⟩
    · exact .inl ⟨_, rfl, rfl, rfl⟩

/-! ## The methods of the model -/

/-- The function of a forwarding method. -/
def forwarder (m : Model) (t : Target) (name : String) (args : List FinderArg) (many : Bool) :
    Function :=
  ⟨some m.modelReceiver,
    ⟨name, args.map (·.param), [if many then m.collectionType else m.instanceType, .error]⟩,
    wrapBody t (m.daoCall name (args.map (·.param))) many⟩

theorem forwardItem_eq (name : String) (args : List FinderArg) (many : Bool) :
    m.forwardItem t name args many = .func (m.forwarder t name args many) := by
  unfold forwardItem forwarder daoCall
  rw [List.map_map]
  rfl

theorem implName_ne (s : String) : s ++ "Instance" ≠ m.implName := by
  intro h
  have hlast := congrArg (·.toList.getLast?) h
  simp [implName] at hlast

/-- A declaration of the collection is no function, or one without a receiver, or a method of the
collection. If the table is just read, such a method has another name than those that change rows,
or it defines a variable first. -/
theorem mem_collectionItems {item : Item} (h : item ∈ m.collectionItems t) :
    item.function? = none ∨ (∃ s body, item = .free s body) ∨
      ∃ name params results body, item = m.collectionMethod name params results body ∧
        (m.isReadOnly = true → name ∉ Finder.otherMethods ∨
          ∃ s value rest, body = .define [s] value :: rest) := by
  have hfixed : ∀ item ∈ m.fixedMethods t, ∃ name params results body,
      item = m.collectionMethod name params results body ∧ name ∉ Finder.otherMethods := by
    unfold fixedMethods
    simp only [List.forall_mem_cons]
    refine ⟨?_, ⟨_, _, _, _, rfl, Finder.findBy_append_notMem _⟩, ?_, ?_, ?_, ?_, ?_, ?_, ?_,
      by simp⟩ <;> exact ⟨_, _, _, _, rfl, by decide⟩
  have hcolumn : ∀ c, ∀ item ∈ m.columnItems c, ∃ name params results s value rest,
      item = m.collectionMethod name params results (.define [s] value :: rest) := by
    intro c item hitem
    simp only [columnItems, List.mem_append, List.mem_ite_nil_right, List.mem_singleton,
      List.mem_map] at hitem
    rcases hitem with (⟨_, rfl⟩ | ⟨order, _, rfl⟩) | rfl <;> exact ⟨_, _, _, _, _, _, rfl⟩
  unfold collectionItems at h
  rcases List.mem_append.mp h with h | hsave
  · rcases List.mem_append.mp h with h | hcolumns
    · rcases List.mem_append.mp h with htypes | hmethod
      · rcases List.mem_pair.mp htypes with rfl | rfl
        · exact .inl rfl
        · exact .inr (.inl ⟨_, _, rfl⟩)
      · obtain ⟨name, params, results, body, hitem, hname⟩ := hfixed item hmethod
        exact .inr (.inr ⟨name, params, results, body, hitem, fun _ => .inl hname⟩)
    · obtain ⟨c, _, hc⟩ := List.mem_flatMap.mp hcolumns
      obtain ⟨name, params, results, s, value, rest, hitem⟩ := hcolumn c item hc
      exact .inr (.inr ⟨name, params, results, _, hitem, fun _ => .inr ⟨s, value, rest, rfl⟩⟩)
  · split at hsave
    · cases hsave
    · rename_i hro
      obtain rfl := List.mem_singleton.mp hsave
      exact .inr (.inr ⟨_, _, _, _, rfl, fun h => absurd h hro⟩)

theorem mem_modelItems {item : Item} (h : item ∈ m.modelItems t) :
    item.function? = none ∨ (∃ s body, item = .free s body) ∨
      ∃ s body, item = .method m.modelReceiver s body := by
  unfold modelItems at h
  rcases List.mem_append.mp h with h | hlookup
  · rcases List.mem_append.mp h with hfixed | hall
    · simp only [List.mem_cons, List.not_mem_nil, or_false] at hfixed
      rcases hfixed with rfl | rfl | rfl | rfl
      · exact .inl rfl
      · exact .inr (.inl ⟨_, _, rfl⟩)
      · exact .inr (.inr ⟨_, _, rfl⟩)
      · exact .inr (.inr ⟨_, _, rfl⟩)
    · split at hall
      · obtain rfl := List.mem_singleton.mp hall
        exact .inr (.inr ⟨_, _, rfl⟩)
      · cases hall
  · obtain ⟨f, _, rfl⟩ := List.mem_map.mp hlookup
    exact .inr (.inr ⟨_, _, rfl⟩)

theorem mem_instanceItems {item : Item} (h : item ∈ m.instanceItems t) :
    item.function? = none ∨ m.isReadOnly = false ∧ ∃ name ∈ ["Save", "Delete"],
      item = m.instanceMethod t name := by
  unfold instanceItems at h
  rcases List.mem_append.mp h with hstruct | hmethod
  · obtain rfl := List.mem_singleton.mp hstruct
    exact .inl rfl
  · split at hmethod
    · cases hmethod
    · rename_i hro
      refine .inr ⟨by simpa using hro, ?_⟩
      rcases List.mem_pair.mp hmethod with rfl | rfl
      · exact ⟨"Save", by decide, rfl⟩
      · exact ⟨"Delete", by decide, rfl⟩

/-- Only the declarations of the model itself are its methods. -/
theorem not_isMethodOf_implName {fn : Function}
    (h : .func fn ∈ m.instanceItems t ++ m.collectionItems t) :
    fn.isMethodOf m.implName = false := by
  have hother : ∀ s body x name, Item.func fn = .method ⟨x, .pointer (.named (name ++ "Instance"))⟩
      s body → fn.isMethodOf m.implName = false := by
    intro s body x name hfn
    cases hfn
    simpa [Function.isMethodOf] using implName_ne name
  rcases List.mem_append.mp h with hinstance | hcollection
  · rcases mem_instanceItems hinstance with hnone | ⟨_, name, _, hfn⟩
    · cases hnone
    · exact hother _ _ "i" m.name hfn
  · rcases mem_collectionItems hcollection with hnone | ⟨s, body, hfn⟩ | ⟨_, _, _, _, hfn, _⟩
    · cases hnone
    · cases hfn
      rfl
    · exact hother _ _ "i" m.collectionName hfn

theorem name_notMem_creators {tb : Table} {f : Finder} (hf : f ∈ tb.finders) :
    f.name ∉ creators := by
  intro hmem
  have hhead : ∀ name ∈ creators, name.toList.head? ≠ some 'F' := by decide
  exact hhead _ hmem (Finder.head?_name hf)

/-- The forwarding methods: that of all rows, if the table is just read, and one for each lookup. -/
theorem forwarding_eq {tb : Table} (h : IsOf tb m) :
    m.forwarding t = (if m.isReadOnly then [m.forwarder t "FindsAll" [] true] else []) ++
      m.finders.map fun f => m.forwarder t f.name f.args f.returnsCollection := by
  have hkept : ∀ {name} args many, name ∉ creators →
      (m.forwardItem t name args many).function?.filter m.isForwarding =
        some (m.forwarder t name args many) := by
    intro name args many hname
    rw [forwardItem_eq]
    refine Option.filter_some_pos ?_
    simpa [isForwarding, forwarder, modelReceiver, Function.isMethodOf] using hname
  have hfixed : ∀ item ∈ [Item.struct m.implName [.plain m.daoField (m.daoType t)],
      m.constructorItem t, m.createInstanceItem t, m.createInstancesItem t],
      item.function?.filter m.isForwarding = none := by
    simp [constructorItem, createInstanceItem, createInstancesItem, Item.free, Item.method,
      Item.function?, isForwarding, Function.isMethodOf, creators]
  have hothers : ∀ item ∈ m.instanceItems t ++ m.collectionItems t,
      item.function?.filter m.isForwarding = none := by
    intro item hitem
    cases item with
    | func fn =>
      refine Option.filter_some_neg ?_
      simp [isForwarding, not_isMethodOf_implName hitem]
    | _ => rfl
  show ((m.items t).filterMap Item.function?).filter m.isForwarding = _
  unfold items modelItems
  rw [List.filter_filterMap, List.append_assoc, List.filterMap_append, List.filterMap_append,
    List.filterMap_append, List.filterMap_eq_nil_iff.mpr hfixed,
    List.filterMap_eq_nil_iff.mpr hothers, List.nil_append, List.append_nil]
  congr 1
  · split
    · have hall := hkept [] true (show "FindsAll" ∉ creators by decide)
      simp only [List.filterMap_cons, List.filterMap_nil, hall]
    · rfl
  · rw [List.filterMap_map, ← List.filterMap_eq_map]
    refine List.filterMap_congr ?_
    intro f hf
    exact hkept f.args f.returnsCollection (name_notMem_creators (h.finders ▸ hf))

theorem names_forwarding {tb : Table} (h : IsOf tb m) :
    (m.forwarding t).map (·.signature.name) =
      (if tb.convention.isReadOnly then ["FindsAll"] else []) ++ tb.finders.map (·.name) := by
  rw [forwarding_eq h, h.isReadOnly, h.finders, List.map_append, List.map_map]
  congr 1
  split <;> rfl

/-! ## Forwarding -/

/-- Forwarding many entities is wrapping many, and forwarding one is wrapping one. -/
theorem forwards_forwarder {e : Entity} {s : Signature} {args : List FinderArg} {many : Bool}
    (hparams : s.params = args.map (·.param))
    (hmany : many = true → s.results.head? =
      some (.qualified (t.packagePath entityPackage) e.collectionName))
    (hone : many = false → s.results.head? =
      some (.pointer (.qualified (t.packagePath entityPackage) e.name))) :
    Forwards m e t (m.forwarder t s.name args many) s := by
  cases many with
  | true =>
    have hwraps : WrapsMany t (m.daoCall s.name (args.map (·.param)))
        (m.forwarder t s.name args true).body := wrapsMany_wrapBody
    have hresult := hmany rfl
    refine ⟨rfl, rfl, by rw [hparams]; rfl, .inl hwraps, iff_of_true hwraps hresult, ?_⟩
    refine iff_of_false (not_wrapsOne_of_wrapsMany hwraps) ?_
    rw [hresult]
    simp
  | false =>
    have hwraps : WrapsOne t (m.daoCall s.name (args.map (·.param)))
        (m.forwarder t s.name args false).body := wrapsOne_wrapBody
    have hresult := hone rfl
    refine ⟨rfl, rfl, by rw [hparams]; rfl, .inr hwraps, ?_, iff_of_true hwraps hresult⟩
    refine iff_of_false (fun hmany => not_wrapsOne_of_wrapsMany hmany hwraps) ?_
    rw [hresult]
    simp

/-! ## Changing rows -/

theorem handsOver_instanceMethod {name : String} {fn : Function}
    (h : .func fn = m.instanceMethod t name) : HandsOver m t name fn := by
  cases h
  exact ⟨rfl, rfl, fun _ _ => path_instanceMethod_iff⟩

/-- If the table is just read, no method hands an entity over. -/
theorem isReadOnly_eq_false_of_handsOver {name : String} {fn : Function}
    (hname : name ∈ ["Save", "Delete"]) (hfn : fn ∈ (m.source t).functions)
    (h : HandsOver m t name fn) : m.isReadOnly = false := by
  by_contra hro
  have hitem : .func fn ∈ m.items t := SourceFile.mem_functions.mp hfn
  unfold items at hitem
  rw [List.append_assoc, List.mem_append, List.mem_append] at hitem
  rcases hitem with hmodel | hinstance | hcollection
  · rcases mem_modelItems hmodel with hnone | ⟨s, body, hfree⟩ | ⟨s, body, hmethod⟩
    · cases hnone
    · cases hfree
      cases h.receiver
    · cases hmethod
      have hr : m.modelReceiver = ⟨"i", m.instanceType⟩ := Option.some.inj h.receiver
      simp [modelReceiver] at hr
  · rcases mem_instanceItems hinstance with hnone | ⟨hfalse, _⟩
    · cases hnone
    · exact hro hfalse
  · rcases mem_collectionItems hcollection with hnone | ⟨s, body, hfree⟩ |
      ⟨_, _, _, _, hmethod, hbody⟩
    · cases hnone
    · cases hfree
      cases h.receiver
    · cases hmethod
      rcases hbody (by simpa using hro) with hother | ⟨s, value, rest, rfl⟩
      · have hsub : name ∈ Finder.otherMethods := List.mem_cons_of_mem _ hname
        rw [← h.name] at hsub
        exact hother hsub
      · -- the body defines a variable first, and tests nothing before
        have hpath := (h.path _ _).mpr ⟨rfl, .inl rfl⟩
        obtain ⟨_, hes, _⟩ := Path.define_iff.mp hpath
        cases hes

theorem instanceMethod_mem_items {name : String} (hro : m.isReadOnly = false)
    (hname : name ∈ ["Save", "Delete"]) : m.instanceMethod t name ∈ m.items t := by
  have hmem : m.instanceMethod t name ∈ m.instanceItems t := by
    unfold instanceItems
    refine List.mem_append_right _ ?_
    simp only [hro]
    exact List.mem_map_of_mem hname
  exact List.mem_append_left _ (List.mem_append_right _ hmem)

theorem exists_handsOver {name : String} (hro : m.isReadOnly = false)
    (hname : name ∈ ["Save", "Delete"]) :
    ∃ fn ∈ (m.source t).functions, HandsOver m t name fn := by
  obtain ⟨fn, hfn⟩ : ∃ fn, m.instanceMethod t name = .func fn := ⟨_, rfl⟩
  refine ⟨fn, SourceFile.mem_functions.mpr ?_, handsOver_instanceMethod hfn.symm⟩
  rw [← hfn]
  exact instanceMethod_mem_items hro hname

/-! ## The data access -/

theorem fields?_implName :
    (m.source t).fields? m.implName = some [.plain m.daoField (m.daoType t)] := by
  have hstruct : Item.fields? m.implName (.struct m.implName [.plain m.daoField (m.daoType t)]) =
      some [.plain m.daoField (m.daoType t)] := if_pos rfl
  show (m.items t).findSome? _ = _
  unfold items modelItems
  simp only [List.cons_append, List.findSome?_cons, hstruct]

variable {tb : Table} {d : Dao} {key : Column}

theorem forwards_finder (hd : Dao.IsOf tb key d) (f : Finder) :
    Forwards m (Entity.ofTable tb) t (m.forwarder t f.name f.args f.returnsCollection)
      (d.finderSignature t f) := by
  have hresult : ∀ many, f.returnsCollection = many → (d.finderSignature t f).results.head? =
      some (if many then d.collectionType t else .pointer (d.entityType t)) := by
    rintro _ rfl
    rfl
  refine forwards_forwarder (s := d.finderSignature t f) rfl ?_ ?_
  · intro hmany
    rw [hresult true hmany, if_pos rfl, Dao.collectionType, hd.collectionName]
    rfl
  · intro hone
    rw [hresult false hone, if_neg (by simp), Dao.entityType, hd.name]
    rfl

theorem forwards_findsAll (hd : Dao.IsOf tb key d) :
    Forwards m (Entity.ofTable tb) t (m.forwarder t "FindsAll" [] true)
      (d.findsAllSignature t) := by
  have hresult : (d.findsAllSignature t).results.head? = some (d.collectionType t) := rfl
  refine forwards_forwarder (s := d.findsAllSignature t) rfl ?_ ?_
  · intro _
    rw [hresult, Dao.collectionType, hd.collectionName]
    rfl
  · intro hone
    cases hone

/-- The forwarding methods and the methods of the data access that they forward to. -/
theorem mem_forwarding_iff (hd : Dao.IsOf tb key d) (hm : IsOf tb m) {fn : Function} :
    fn ∈ m.forwarding t ↔
      (m.isReadOnly = true ∧ fn = m.forwarder t "FindsAll" [] true) ∨
        ∃ f ∈ d.methods, fn = m.forwarder t f.name f.args f.returnsCollection := by
  rw [forwarding_eq hm, hm.finders, ← hd.methods, List.mem_append, List.mem_ite_nil_right,
    List.mem_singleton, List.mem_map]
  simp only [eq_comm]

theorem mem_signatures_iff (hd : Dao.IsOf tb key d) (hm : IsOf tb m) {s : Signature} :
    s ∈ d.signatures t ↔
      (m.isReadOnly = true ∧ s = d.findsAllSignature t) ∨
        (m.isReadOnly = false ∧ ∃ name ∈ ["Save", "Delete"], s = d.entitySignature t name) ∨
        ∃ f ∈ d.methods, s = d.finderSignature t f := by
  have hro : d.isReadOnly = m.isReadOnly := by
    unfold Dao.isReadOnly
    rw [hd.convention, hm.isReadOnly]
  unfold Dao.signatures
  rw [hro, List.mem_append, List.mem_map]
  cases m.isReadOnly <;> simp [eq_comm, or_assoc]

theorem reachesDao_of_isOf (hok : Dao.ofTable tb = .ok d) (hd : Dao.IsOf tb key d)
    (hm : IsOf tb m) : ReachesDao tb d m t := by
  refine ⟨⟨Dao.methods?_name t, ?_⟩, names_forwarding hm, ?_, ?_, ?_⟩
  · rw [fields?_implName, daoType, hm.name, hd.name]
  · intro fn hfn
    have hnamed : ∀ s ∈ d.signatures t, Forwards m (Entity.ofTable tb) t fn s →
        ∃ s, (d.signatures t).filter (·.name = fn.signature.name) = [s] ∧
          Forwards m (Entity.ofTable tb) t fn s := by
      intro s hs hforwards
      refine ⟨s, ?_, hforwards⟩
      rw [hforwards.name]
      exact Dao.signatures_named t hok hs
    rcases (mem_forwarding_iff hd hm).mp hfn with ⟨hro, rfl⟩ | ⟨f, hf, rfl⟩
    · exact hnamed _ ((mem_signatures_iff hd hm).mpr (.inl ⟨hro, rfl⟩)) (forwards_findsAll hd)
    · exact hnamed _ ((mem_signatures_iff hd hm).mpr (.inr (.inr ⟨f, hf, rfl⟩)))
        (forwards_finder hd f)
  · intro s hs
    rcases (mem_signatures_iff hd hm).mp hs with ⟨hro, rfl⟩ | ⟨hro, name, hname, rfl⟩ | ⟨f, hf, rfl⟩
    · exact .inl ⟨_, (mem_forwarding_iff hd hm).mpr (.inl ⟨hro, rfl⟩), forwards_findsAll hd⟩
    · exact .inr ⟨hname, exists_handsOver hro hname⟩
    · exact .inl ⟨_, (mem_forwarding_iff hd hm).mpr (.inr ⟨f, hf, rfl⟩), forwards_finder hd f⟩
  · intro name hname
    rw [← hm.isReadOnly]
    refine ⟨⟨?_, ?_⟩, ?_, fun hro => exists_handsOver hro hname⟩
    · intro hmem
      obtain ⟨s, hs, rfl⟩ := List.mem_map.mp hmem
      have hother : s.name ∈ Finder.otherMethods := List.mem_cons_of_mem _ hname
      rcases (mem_signatures_iff hd hm).mp hs with ⟨_, rfl⟩ | ⟨hro, _⟩ | ⟨f, hf, rfl⟩
      · exact absurd (show "FindsAll" ∈ ["Save", "Delete"] from hname) (by decide)
      · exact hro
      · exact absurd hother (Finder.name_notMem_otherMethods (hd.methods ▸ hf))
    · intro hro
      have hs : d.entitySignature t name ∈ d.signatures t :=
        (mem_signatures_iff hd hm).mpr (.inr (.inl ⟨hro, name, hname, rfl⟩))
      exact List.mem_map.mpr ⟨_, hs, rfl⟩
    · rintro ⟨fn, hfn, h⟩
      exact isReadOnly_eq_false_of_handsOver hname hfn h

/-- The model of a table forwards every lookup to the data access of the same table, and reaches all
of its methods. -/
theorem reachesDao {tb : Table} {d : Dao} {m : Model} (hd : Dao.ofTable tb = .ok d)
    (hm : ofTable tb = .ok m) (t : Target) : ReachesDao tb d m t := by
  obtain ⟨key, hof⟩ := Dao.exists_isOf hd
  exact reachesDao_of_isOf hd hof (isOf_of_ofTable hm)

/-- Items are found by owner, by identifier and by item, and they are saved and deleted. -/
theorem userItems_reachesDao :
    ∃ d m, Dao.ofTable Declaration.userItemsTable = .ok d ∧
      ofTable Declaration.userItemsTable = .ok m ∧
      (m.forwarding (.ofModule "example")).map (·.signature.name) =
        ["Find", "FindByID", "FindByIDs", "FindByItemID", "FindByItemIDs"] ∧
      (d.signatures (.ofModule "example")).map (·.name) =
        ["Save", "Delete", "Find", "FindByID", "FindByIDs", "FindByItemID", "FindByItemIDs"] ∧
      ReachesDao Declaration.userItemsTable d m (.ofModule "example") := by
  obtain ⟨d, hd⟩ : ∃ d, Dao.ofTable Declaration.userItemsTable = .ok d := ⟨_, rfl⟩
  obtain ⟨m, hm⟩ : ∃ m, ofTable Declaration.userItemsTable = .ok m := ⟨_, rfl⟩
  have hreaches := reachesDao hd hm (.ofModule "example")
  have hro : Declaration.userItemsTable.convention.isReadOnly = false := by decide +kernel
  have hnames : Declaration.userItemsTable.finders.map (·.name) =
      ["Find", "FindByID", "FindByIDs", "FindByItemID", "FindByItemIDs"] := by decide +kernel
  refine ⟨d, m, hd, hm, ?_, ?_, hreaches⟩
  · rw [hreaches.names, hro, hnames]
    rfl
  · obtain ⟨key, hof⟩ := Dao.exists_isOf hd
    rw [Dao.names_signatures, Dao.methodNames, hof.methods, hnames, Dao.isReadOnly, hof.convention,
      hro]
    rfl

end Model

end Tablewright
