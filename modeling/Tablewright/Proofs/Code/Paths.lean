import Tablewright.Proofs.Code.Parts

/-! The paths through code. A path records what is done one step after another, and how every test
that it meets comes out. Nothing is said about values: a condition may hold or fail wherever it is
tested. Blocks are sequences that a `return` cuts short, and a loop runs its body any number of
times. -/

namespace Tablewright.Code

/-! ## Paths -/

/-- A step of a path. -/
inductive Event
  | eval (e : Expr)
  | define (names : List String) (value : Expr)
  | assign (target value : Expr)
  | declare (name : String) (type : TypeRef)
  /-- A condition, and whether it holds. -/
  | test (condition : Expr) (holds : Bool)
  /-- Whether a loop over a sequence finds one more element. -/
  | element (found : Bool)
  | ret (values : List Expr)

/-- How a path leaves the code that it goes through. -/
inductive Exit
  /-- Behind the last statement. -/
  | falls
  | returns
deriving DecidableEq

mutual

/-- The paths through a statement. -/
inductive Stmt.Path : Stmt → List Event → Exit → Prop
  | expr (e : Expr) : Stmt.Path (.expr e) [.eval e] .falls
  | define (names : List String) (value : Expr) :
    Stmt.Path (.define names value) [.define names value] .falls
  | assign (target value : Expr) : Stmt.Path (.assign target value) [.assign target value] .falls
  | declare (name : String) (type : TypeRef) :
    Stmt.Path (.declare name type) [.declare name type] .falls
  | ret (values : List Expr) : Stmt.Path (.ret values) [.ret values] .returns
  | skip {init : Option Stmt} {condition : Expr} {body : List Stmt} {es : List Event} :
    Path init.toList es .falls →
      Stmt.Path (.when init condition body) (es ++ [.test condition false]) .falls
  | take {init : Option Stmt} {condition : Expr} {body : List Stmt} {es es' : List Event}
      {exit : Exit} :
    Path init.toList es .falls → Path body es' exit →
      Stmt.Path (.when init condition body) (es ++ .test condition true :: es') exit
  | range {key : Option String} {value : String} {source : Expr} {body : List Stmt}
      {es : List Event} {exit : Exit} :
    Rounds .element body es exit →
      Stmt.Path (.range key value source body) (.eval source :: es) exit
  | count {counter : String} {first bound : Expr} {body : List Stmt} {es : List Event}
      {exit : Exit} :
    Rounds (.test (.binary (.ident counter) .lt bound)) body es exit →
      Stmt.Path (.count counter first bound body) (.define [counter] first :: es) exit

/-- The paths through a block. -/
inductive Path : List Stmt → List Event → Exit → Prop
  | nil : Path [] [] .falls
  | cons {s : Stmt} {rest : List Stmt} {es es' : List Event} {exit : Exit} :
    s.Path es .falls → Path rest es' exit → Path (s :: rest) (es ++ es') exit
  | stop {s : Stmt} {rest : List Stmt} {es : List Event} :
    s.Path es .returns → Path (s :: rest) es .returns

/-- The paths through a loop. Before each round, `check` says whether there is one more. -/
inductive Rounds : (Bool → Event) → List Stmt → List Event → Exit → Prop
  | done {check : Bool → Event} {body : List Stmt} : Rounds check body [check false] .falls
  | again {check : Bool → Event} {body : List Stmt} {es es' : List Event} {exit : Exit} :
    Path body es .falls → Rounds check body es' exit →
      Rounds check body (check true :: (es ++ es')) exit
  | stop {check : Bool → Event} {body : List Stmt} {es : List Event} :
    Path body es .returns → Rounds check body (check true :: es) .returns

end

/-- The event of a statement that is one step. -/
def Stmt.event? : Stmt → Option Event
  | .expr e => some (.eval e)
  | .define names value => some (.define names value)
  | .assign target value => some (.assign target value)
  | .declare name type => some (.declare name type)
  | _ => none

/-! ## Following a path -/

namespace Path

variable {s : Stmt} {rest : List Stmt} {es : List Event} {exit : Exit}

theorem nil_iff : Path [] es exit ↔ es = [] ∧ exit = .falls := by
  constructor
  · intro h
    cases h
    exact ⟨rfl, rfl⟩
  · rintro ⟨rfl, rfl⟩
    exact .nil

theorem cons_iff :
    Path (s :: rest) es exit ↔
      (∃ es₁ es₂, es = es₁ ++ es₂ ∧ s.Path es₁ .falls ∧ Path rest es₂ exit) ∨
        exit = .returns ∧ s.Path es .returns := by
  constructor
  · intro h
    cases h with
    | cons first tail => exact .inl ⟨_, _, rfl, first, tail⟩
    | stop first => exact .inr ⟨rfl, first⟩
  · rintro (⟨es₁, es₂, rfl, first, tail⟩ | ⟨rfl, first⟩)
    · exact .cons first tail
    · exact .stop first

theorem ret_iff {values : List Expr} :
    Path (.ret values :: rest) es exit ↔ es = [.ret values] ∧ exit = .returns := by
  rw [cons_iff]
  constructor
  · rintro (⟨_, _, _, h, _⟩ | ⟨rfl, h⟩)
    · cases h
    · cases h
      exact ⟨rfl, rfl⟩
  · rintro ⟨rfl, rfl⟩
    exact .inr ⟨rfl, .ret values⟩

theorem event_iff {e : Event} (h : s.event? = some e) {es' : List Event} {exit' : Exit} :
    s.Path es' exit' ↔ es' = [e] ∧ exit' = .falls := by
  constructor
  · intro hs
    cases hs <;> cases h
    all_goals exact ⟨rfl, rfl⟩
  · rintro ⟨rfl, rfl⟩
    cases s <;> cases h <;> constructor

theorem step_iff {e : Event} (h : s.event? = some e) :
    Path (s :: rest) es exit ↔ ∃ es', es = e :: es' ∧ Path rest es' exit := by
  rw [cons_iff]
  constructor
  · rintro (⟨_, es', rfl, first, tail⟩ | ⟨_, first⟩)
    · obtain ⟨rfl, _⟩ := (event_iff h).mp first
      exact ⟨es', rfl, tail⟩
    · obtain ⟨_, hexit⟩ := (event_iff h).mp first
      cases hexit
  · rintro ⟨es', rfl, tail⟩
    exact .inl ⟨[e], es', rfl, (event_iff h).mpr ⟨rfl, rfl⟩, tail⟩

theorem define_iff {names : List String} {value : Expr} :
    Path (.define names value :: rest) es exit ↔
      ∃ es', es = .define names value :: es' ∧ Path rest es' exit :=
  step_iff rfl

/-- Statements that are one step each are passed in their order. -/
theorem steps_iff {steps : List Stmt} {events : List Event}
    (h : steps.map Stmt.event? = events.map some) :
    Path (steps ++ rest) es exit ↔ ∃ es', es = events ++ es' ∧ Path rest es' exit := by
  induction steps generalizing events es with
  | nil =>
    obtain rfl : events = [] := by simpa using h.symm
    simp
  | cons s steps ih =>
    cases events with
    | nil => cases h
    | cons e events =>
      obtain ⟨hs, hsteps⟩ := List.cons.inj h
      rw [List.cons_append, step_iff hs]
      simp only [ih hsteps]
      constructor
      · rintro ⟨_, rfl, es', rfl, tail⟩
        exact ⟨es', rfl, tail⟩
      · rintro ⟨es', rfl, tail⟩
        exact ⟨_, rfl, es', rfl, tail⟩

theorem steps_ret_iff {steps : List Stmt} {events : List Event} {values : List Expr}
    (h : steps.map Stmt.event? = events.map some) :
    Path (steps ++ [.ret values]) es exit ↔ es = events ++ [.ret values] ∧ exit = .returns := by
  rw [steps_iff h]
  simp only [ret_iff]
  constructor
  · rintro ⟨_, rfl, rfl, hexit⟩
    exact ⟨rfl, hexit⟩
  · rintro ⟨rfl, hexit⟩
    exact ⟨_, rfl, rfl, hexit⟩

/-- A condition fails, or holds and its body is gone through, to its end or to a `return`. -/
theorem when_iff {condition : Expr} {body : List Stmt} :
    Path (.when none condition body :: rest) es exit ↔
      (∃ es', es = .test condition false :: es' ∧ Path rest es' exit) ∨
      (∃ es₁ es₂, es = .test condition true :: (es₁ ++ es₂) ∧ Path body es₁ .falls ∧
        Path rest es₂ exit) ∨
      ∃ es', es = .test condition true :: es' ∧ Path body es' .returns ∧ exit = .returns := by
  have hwhen : ∀ es' exit', (Stmt.when none condition body).Path es' exit' ↔
      es' = [.test condition false] ∧ exit' = .falls ∨
        ∃ es₁, es' = .test condition true :: es₁ ∧ Path body es₁ exit' := by
    intro es' exit'
    constructor
    · intro h
      cases h with
      | skip hinit =>
        obtain ⟨rfl, _⟩ := nil_iff.mp hinit
        exact .inl ⟨rfl, rfl⟩
      | take hinit hbody =>
        obtain ⟨rfl, _⟩ := nil_iff.mp hinit
        exact .inr ⟨_, rfl, hbody⟩
    · have hinit : Path (none : Option Stmt).toList [] .falls := .nil
      rintro (⟨rfl, rfl⟩ | ⟨es₁, rfl, hbody⟩)
      · exact .skip hinit
      · exact .take hinit hbody
  rw [cons_iff]
  constructor
  · rintro (⟨_, es₂, rfl, first, tail⟩ | ⟨rfl, first⟩)
    · rcases (hwhen _ _).mp first with ⟨rfl, _⟩ | ⟨es₁, rfl, hbody⟩
      · exact .inl ⟨es₂, rfl, tail⟩
      · exact .inr (.inl ⟨es₁, es₂, rfl, hbody, tail⟩)
    · rcases (hwhen _ _).mp first with ⟨_, hexit⟩ | ⟨es₁, rfl, hbody⟩
      · cases hexit
      · exact .inr (.inr ⟨es₁, rfl, hbody, rfl⟩)
  · rintro (⟨es', rfl, tail⟩ | ⟨es₁, es₂, rfl, hbody, tail⟩ | ⟨es', rfl, hbody, rfl⟩)
    · exact .inl ⟨[_], es', rfl, (hwhen _ _).mpr (.inl ⟨rfl, rfl⟩), tail⟩
    · exact .inl ⟨_, es₂, rfl, (hwhen _ _).mpr (.inr ⟨es₁, rfl, hbody⟩), tail⟩
    · exact .inr ⟨rfl, (hwhen _ _).mpr (.inr ⟨es', rfl, hbody⟩)⟩

/-- A condition fails, or the path ends with the values. -/
theorem whenRet_iff {condition : Expr} {values : List Expr} :
    Path (.when none condition [.ret values] :: rest) es exit ↔
      (∃ es', es = .test condition false :: es' ∧ Path rest es' exit) ∨
        es = [.test condition true, .ret values] ∧ exit = .returns := by
  rw [when_iff]
  constructor
  · rintro (h | ⟨_, _, _, hbody, _⟩ | ⟨es', rfl, hbody, rfl⟩)
    · exact .inl h
    · obtain ⟨_, hexit⟩ := ret_iff.mp hbody
      cases hexit
    · obtain ⟨rfl, _⟩ := ret_iff.mp hbody
      exact .inr ⟨rfl, rfl⟩
  · rintro (h | ⟨rfl, rfl⟩)
    · exact .inl h
    · exact .inr (.inr ⟨_, rfl, ret_iff.mpr ⟨rfl, rfl⟩, rfl⟩)

/-- The call gives no error, or the path ends with the values and the traced error. -/
theorem checkErr_iff {t : Target} {values : List Expr} :
    Path (checkErr t values :: rest) es exit ↔
      (∃ es', es = .test failed false :: es' ∧ Path rest es' exit) ∨
        es = [.test failed true, .ret (values ++ [t.traceErr])] ∧ exit = .returns :=
  whenRet_iff

theorem tryCall_iff {t : Target} {call : Expr} {values : List Expr} :
    Path (tryCall t call values :: rest) es exit ↔
      (∃ es', es = .define ["err"] call :: .test failed false :: es' ∧ Path rest es' exit) ∨
        es = [.define ["err"] call, .test failed true, .ret (values ++ [t.traceErr])] ∧
          exit = .returns := by
  have hinit : ∀ es', Path [.define ["err"] call] es' .falls ↔ es' = [.define ["err"] call] := by
    intro es'
    rw [step_iff rfl]
    simp [nil_iff]
  unfold tryCall
  rw [cons_iff]
  constructor
  · rintro (⟨_, es₂, rfl, first, tail⟩ | ⟨rfl, first⟩)
    · cases first with
      | skip before =>
        obtain rfl := (hinit _).mp before
        exact .inl ⟨es₂, rfl, tail⟩
      | take _ hbody =>
        obtain ⟨_, hexit⟩ := ret_iff.mp hbody
        cases hexit
    · cases first with
      | take before hbody =>
        obtain rfl := (hinit _).mp before
        obtain ⟨rfl, _⟩ := ret_iff.mp hbody
        exact .inr ⟨rfl, rfl⟩
  · have before : Path (some (Stmt.define ["err"] call)).toList [.define ["err"] call] .falls :=
      (hinit _).mpr rfl
    rintro (⟨es₂, rfl, tail⟩ | ⟨rfl, rfl⟩)
    · exact .inl ⟨_, es₂, rfl, .skip before, tail⟩
    · exact .inr ⟨rfl, .take before (ret_iff.mpr ⟨rfl, rfl⟩)⟩

end Path

/-! ## What a path does -/

namespace Event

/-- The method calls that stand in what is evaluated at an event. -/
def calls : Event → List Call
  | .eval e | .define _ e | .test e _ => e.calls
  | .assign target value => target.calls ++ value.calls
  | .ret values => values.flatMap Expr.calls
  | .declare _ _ | .element _ => []

/-- The calls of one method on a path. -/
def callsOf (method : String) (es : List Event) : List Call :=
  (es.flatMap calls).filter (·.method = method)

/-- The calls of the methods of one variable on a path. -/
def callsOn (name : String) (es : List Event) : List Call :=
  (es.flatMap calls).filter fun c => match c.receiver with
    | .ident receiver => receiver = name
    | _ => false

def definition? (name : String) : Event → Option Expr
  | .define [defined] value => if defined = name then some value else none
  | _ => none

/-- What a path defines a variable as. -/
def definitionsOf (name : String) (es : List Event) : List Expr := es.filterMap (definition? name)

/-- The guard stands before every event with a property. -/
def OnlyAfter (guard : Event) (p : Event → Prop) (es : List Event) : Prop :=
  ∀ before e after, es = before ++ e :: after → p e → guard ∈ before

attribute [simp] calls definition?

@[simp] theorem callsOf_nil (method : String) : callsOf method [] = [] := rfl

@[simp] theorem callsOf_cons (method : String) (e : Event) (es : List Event) :
    callsOf method (e :: es) = e.calls.filter (·.method = method) ++ callsOf method es := by
  unfold callsOf
  rw [List.flatMap_cons, List.filter_append]

@[simp] theorem callsOf_append (method : String) (es es' : List Event) :
    callsOf method (es ++ es') = callsOf method es ++ callsOf method es' := by
  unfold callsOf
  rw [List.flatMap_append, List.filter_append]

@[simp] theorem callsOn_nil (name : String) : callsOn name [] = [] := rfl

@[simp] theorem callsOn_append (name : String) (es es' : List Event) :
    callsOn name (es ++ es') = callsOn name es ++ callsOn name es' := by
  unfold callsOn
  rw [List.flatMap_append, List.filter_append]

theorem callsOn_map {α : Type} {name : String} {event : α → Event} {call : α → Call}
    (h : ∀ x, callsOn name [event x] = [call x]) (xs : List α) :
    callsOn name (xs.map event) = xs.map call := by
  induction xs with
  | nil => rfl
  | cons x xs ih =>
    rw [List.map_cons, List.map_cons, ← ih, ← List.singleton_append, callsOn_append, h]
    rfl

@[simp] theorem definitionsOf_nil (name : String) : definitionsOf name [] = [] := rfl

@[simp] theorem definitionsOf_cons (name : String) (e : Event) (es : List Event) :
    definitionsOf name (e :: es) = (e.definition? name).toList ++ definitionsOf name es := by
  unfold definitionsOf
  cases h : e.definition? name with
  | none => rw [List.filterMap_cons_none h]; rfl
  | some value => rw [List.filterMap_cons_some h]; rfl

@[simp] theorem definitionsOf_append (name : String) (es es' : List Event) :
    definitionsOf name (es ++ es') = definitionsOf name es ++ definitionsOf name es' :=
  List.filterMap_append

variable {guard : Event} {p : Event → Prop} {e : Event} {es : List Event}

theorem onlyAfter_nil : OnlyAfter guard p [] := by
  intro before e after h
  simp at h

theorem onlyAfter_guard (h : ¬ p guard) : OnlyAfter guard p (guard :: es) := by
  intro before e after hes he
  cases before with
  | nil =>
    obtain ⟨rfl, _⟩ := List.cons.inj hes
    exact absurd he h
  | cons first rest =>
    obtain ⟨rfl, _⟩ := List.cons.inj hes
    exact List.mem_cons_self

theorem onlyAfter_cons (h : ¬ p e) (hes : OnlyAfter guard p es) : OnlyAfter guard p (e :: es) := by
  intro before e' after heq he
  cases before with
  | nil =>
    obtain ⟨rfl, _⟩ := List.cons.inj heq
    exact absurd he h
  | cons first rest =>
    obtain ⟨rfl, htail⟩ := List.cons.inj heq
    exact List.mem_cons_of_mem _ (hes rest e' after htail he)

theorem onlyAfter_append {es' : List Event} (h : ∀ e ∈ es, ¬ p e) (hes : OnlyAfter guard p es') :
    OnlyAfter guard p (es ++ es') := by
  induction es with
  | nil => exact hes
  | cons e es ih =>
    obtain ⟨he, hrest⟩ := List.forall_mem_cons.mp h
    exact onlyAfter_cons he (ih hrest)

theorem onlyAfter_of_forall_not (h : ∀ e ∈ es, ¬ p e) : OnlyAfter guard p es := by
  have happend : OnlyAfter guard p (es ++ []) := onlyAfter_append h onlyAfter_nil
  rwa [List.append_nil] at happend

end Event

end Tablewright.Code
