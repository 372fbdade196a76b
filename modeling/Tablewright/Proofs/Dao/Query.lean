import Tablewright.Dao.Source
import Tablewright.Proofs.Finder.Arguments

/-! What the lookups of a data access ask for. A query is read off the generated expression: where it
starts, and its conditions in order. The owner of the rows comes in with the builder that a query
starts from, all other columns with the parameters of the method, and together they are the columns
of the lookup. -/

namespace Tablewright

open Code

/-! ## Queries, read off generated code -/

namespace Query

inductive Start
  /-- A builder that the data access holds. -/
  | builder (name : String)
  /-- A fresh query on a table, from the package with the given import path. -/
  | table (package name : String)
deriving DecidableEq

/-- What a condition compares its column with. -/
inductive Operand
  | parameter (name : String)
  | currentUser
deriving DecidableEq

structure Condition where
  lookup : Lookup
  column : String
  operand : Operand
deriving DecidableEq

end Query

structure Query where
  start : Query.Start
  conditions : List Query.Condition
deriving DecidableEq

namespace Query

def lookup? : String → Option Lookup
  | "Eq" => some .eq
  | "In" => some .among
  | _ => none

def operand? : Expr → Option Operand
  | .ident name => some (.parameter name)
  | .call (.ident "userIDGetter") [] => some .currentUser
  | _ => none

/-- The query with one more condition. -/
def add (q : Query) (c : Condition) : Query := { q with conditions := q.conditions ++ [c] }

/-- The query that an expression builds. -/
def ofExpr? : Expr → Option Query
  | .call (.field (.ident "d") builder) [] => some ⟨.builder builder, []⟩
  | .call (.qualified package "NewQueryBuilder") [.str table] => some ⟨.table package table, []⟩
  | .call (.field query method) [.str column, value] => do
    let q ← ofExpr? query
    return q.add ⟨← lookup? method, column, ← operand? value⟩
  | _ => none

/-- The variable whose query a statement hands to the transaction. -/
def searched? : Stmt → Option String
  | .when (some (.define ["err"]
      (.call (.field (.ident "tx") "FindByQueryBuilder") [.ident query, .ident _]))) _ _ =>
    some query
  | _ => none

/-- What a statement defines the variable as. -/
def definition? (name : String) : Stmt → Option Expr
  | .define [defined] value => if defined = name then some value else none
  | _ => none

/-- The query that a body runs. -/
def run? (body : List Stmt) : Option Query := do
  let name ← body.findSome? searched?
  ofExpr? (← body.findSome? (definition? name))

/-- The query that a constructor puts behind a builder: a function without parameters, in a field of
the value that it returns. -/
def builder? (name : String) : Item → Option Query
  | .func ⟨none, _, [.ret [.unary .addr (.composite _ fields)]]⟩ =>
    match fields.lookup name with
    | some (.func [] _ [.ret [query]]) => ofExpr? query
    | _ => none
  | _ => none

def columns (q : Query) : List String := q.conditions.map (·.column)

end Query

namespace Dao

/-- The condition that an argument adds. -/
def condition (lookup : Lookup) (a : FinderArg) : Query.Condition :=
  ⟨lookup, a.column, .parameter a.name⟩

/-! ## Builders -/

/-- The builder of a lookup: that of the current user's rows if the owner is one of its columns. -/
def builderName (f : Finder) : String := if userIdColumn ∈ f.columns then "uqb" else "qb"

/-- The query behind the builder of a lookup. -/
def builderQuery (d : Dao) (t : Target) (f : Finder) : Query :=
  { start := .table t.rapidashPath d.tableName
    conditions := if userIdColumn ∈ f.columns then [⟨.eq, userIdColumn, .currentUser⟩] else [] }

variable {d : Dao} (t : Target) {f : Finder}

theorem builder?_qb : Query.builder? "qb" (d.constructorItem t) =
    some ⟨.table t.rapidashPath d.tableName, []⟩ := by
  rfl

theorem builder?_uqb (h : d.hasUserIdGetter = true) :
    Query.builder? "uqb" (d.constructorItem t) =
      some ⟨.table t.rapidashPath d.tableName, [⟨.eq, userIdColumn, .currentUser⟩]⟩ := by
  unfold constructorItem implValues
  rw [h]
  rfl

/-- The constructor knows the current user if a lookup needs him. -/
theorem hasUserIdGetter_of_mem {tb : Table} (h : ofTable tb = .ok d) (hf : f ∈ d.methods)
    (howner : userIdColumn ∈ f.columns) : d.hasUserIdGetter = true := by
  unfold ofTable at h
  split at h
  · cases h
  · obtain rfl := Except.ok.inj h
    rw [Bool.or_eq_true, List.any_eq_true]
    exact .inr ⟨f, hf, by simpa [Finder.isUserScoped] using howner⟩

theorem builder?_builderName {tb : Table} (h : ofTable tb = .ok d) (hf : f ∈ d.methods) :
    Query.builder? (builderName f) (d.constructorItem t) = some (d.builderQuery t f) := by
  unfold builderName builderQuery
  split
  · rename_i howner
    exact builder?_uqb t (hasUserIdGetter_of_mem h hf howner)
  · exact builder?_qb t

/-! ## Conditions -/

theorem ofExpr?_addCondition (lookup : Lookup) (query : Expr) (a : FinderArg) :
    Query.ofExpr? (addCondition lookup query a) =
      (Query.ofExpr? query).map (·.add (condition lookup a)) := by
  cases lookup <;> cases h : Query.ofExpr? query <;>
    simp [addCondition, conditionMethod, Expr.method, Query.ofExpr?, Query.lookup?,
      Query.operand?, condition, h]

/-- Each argument adds its condition behind those of the arguments before it. -/
theorem ofExpr?_foldl_addCondition (lookup : Lookup) (args : List FinderArg) (query : Expr)
    (q : Query) (h : Query.ofExpr? query = some q) :
    Query.ofExpr? (args.foldl (addCondition lookup) query) =
      some { q with conditions := q.conditions ++ args.map (condition lookup) } := by
  induction args generalizing query q with
  | nil => simp [h]
  | cons a rest ih =>
    rw [List.foldl_cons, ih _ (q.add (condition lookup a)) (by rw [ofExpr?_addCondition, h]; rfl)]
    simp [Query.add]

theorem ofExpr?_finderQuery (f : Finder) :
    Query.ofExpr? (finderQuery f) =
      some ⟨.builder (builderName f), f.args.map (condition f.lookup)⟩ := by
  have hname : (if f.isUserScoped then "uqb" else "qb") = builderName f := by
    unfold builderName
    simp [Finder.isUserScoped]
  unfold finderQuery
  rw [hname, ofExpr?_foldl_addCondition f.lookup f.args _ ⟨.builder (builderName f), []⟩ rfl]
  rfl

theorem run?_finderItem (f : Finder) :
    ∃ body, d.finderItem t f = .method d.receiver (d.finderSignature t f) body ∧
      Query.run? body = some ⟨.builder (builderName f), f.args.map (condition f.lookup)⟩ := by
  refine ⟨_, rfl, ?_⟩
  rw [← ofExpr?_finderQuery]
  rfl

/-! ## The columns of a query -/

theorem methods_eq_finders {tb : Table} (h : ofTable tb = .ok d) : d.methods = tb.finders := by
  unfold ofTable at h
  split at h
  · cases h
  · rw [← Except.ok.inj h]

/-- A function with this signature runs the query for the lookup. `builder` is the query that its
builder stands for. -/
structure Asks (f : Finder) (signature : Signature) (builder q : Query) : Prop where
  name : signature.name = f.name
  start : q.start = .builder (builderName f)
  /-- One condition for each argument. -/
  conditions : q.conditions = f.args.map (condition f.lookup)
  parameters : signature.params = f.args.map (·.param)
  /-- The parameters are what the conditions compare with, in order. -/
  operands : q.conditions.map (·.operand) = signature.params.map (.parameter ·.name)
  columns : ∀ c, c ∈ builder.columns ++ q.columns ↔ c ∈ f.columns
  owner : userIdColumn ∉ q.columns

theorem asks_run {tb : Table} (h : ofTable tb = .ok d) (hf : f ∈ d.methods) :
    Asks f (d.finderSignature t f) (d.builderQuery t f)
      ⟨.builder (builderName f), f.args.map (condition f.lookup)⟩ := by
  have hcolumns : (f.args.map (condition f.lookup)).map (·.column) =
      f.columns.filter (· ≠ userIdColumn) := by
    rw [List.map_map, ← Finder.columns_args (methods_eq_finders h ▸ hf)]
    rfl
  refine ⟨rfl, rfl, rfl, rfl, ?_, ?_, ?_⟩
  · unfold finderSignature
    rw [List.map_map, List.map_map]
    rfl
  · intro c
    unfold Query.columns builderQuery
    rw [hcolumns]
    by_cases howner : userIdColumn ∈ f.columns
    · by_cases hc : c = userIdColumn
      · simp [hc, howner]
      · simp [hc, howner]
    · have hne : c ∈ f.columns → c ≠ userIdColumn := by
        rintro hc rfl
        exact howner hc
      simpa [howner] using hne
  · unfold Query.columns
    rw [hcolumns]
    simp

/-- Of the declarations of the file, the constructor is the one that defines builders. -/
theorem findSome?_builder? {name : String} {q : Query}
    (h : Query.builder? name (d.constructorItem t) = some q) :
    (d.source t).items.findSome? (Query.builder? name) = some q := by
  have hinterface : Query.builder? name (d.interfaceItem t) = none := rfl
  have hstruct : Query.builder? name (.struct d.implName (d.implFields t)) = none := rfl
  change (d.items t).findSome? _ = _
  unfold items
  rw [List.append_assoc]
  simp only [List.cons_append, List.nil_append, List.findSome?_cons, hinterface, hstruct, h]

/-- Every lookup asks for exactly its columns. The owner's comes with the builder, which the
constructor defines, and the others with the parameters. -/
theorem exists_asks {tb : Table} (h : ofTable tb = .ok d) (hf : f ∈ d.methods) :
    ∃ fn q, .func fn ∈ (d.source t).items ∧ Query.run? fn.body = some q ∧
      (d.source t).items.findSome? (Query.builder? (builderName f)) = some (d.builderQuery t f) ∧
      Asks f fn.signature (d.builderQuery t f) q := by
  obtain ⟨body, hitem, hrun⟩ := run?_finderItem (d := d) t f
  have hmem : d.finderItem t f ∈ (d.source t).items :=
    List.mem_append_right _ (List.mem_map_of_mem hf)
  rw [hitem] at hmem
  exact ⟨_, _, hmem, hrun, findSome?_builder? t (builder?_builderName t h hf), asks_run t h hf⟩

/-- Master data with an owner: the lookup by score starts from the builder of the current user. -/
def rankings : Table :=
  { name := "rankings"
    columns := [
      ⟨"id", "int", .uint32, 0, false, true, true, none, true, [], []⟩,
      ⟨"score", "int", .int32, 0, false, false, false, none, false, [], ["score_user"]⟩,
      ⟨"user_id", "bigint", .uint64, 0, false, true, true, none, false, [], ["score_user"]⟩,
      ⟨"level", "int", .int32, 0, false, false, false, none, false, [], ["score_user"]⟩]
    indexes := [
      ⟨"PRIMARY", true, true, ["id"]⟩,
      ⟨"score_user", false, false, ["score", "user_id", "level"]⟩]
    isReadOnly := true }

def findByScoreAndLevel : Finder :=
  ⟨"FindByScoreAndLevel", [⟨"k0", "score", .int32, false⟩, ⟨"k1", "level", .int32, false⟩],
    .collection, .eq, ["score", "user_id", "level"]⟩

theorem rankings_asks :
    ∃ d, ofTable rankings = .ok d ∧ findByScoreAndLevel ∈ d.methods ∧
      ∃ fn, .func fn ∈ (d.source (.ofModule "example")).items ∧
        Query.run? fn.body = some ⟨.builder "uqb",
          [⟨.eq, "score", .parameter "k0"⟩, ⟨.eq, "level", .parameter "k1"⟩]⟩ ∧
        (d.source (.ofModule "example")).items.findSome? (Query.builder? "uqb") =
          some ⟨.table "go.knocknote.io/rapidash" "rankings",
            [⟨.eq, "user_id", .currentUser⟩]⟩ := by
  have hf : findByScoreAndLevel ∈ rankings.finders := by decide +kernel
  refine ⟨_, rfl, hf, ?_⟩
  obtain ⟨fn, ⟨start, conditions⟩, hmem, hrun, hbuilder, hasks⟩ :=
    exists_asks (.ofModule "example") (show ofTable rankings = _ from rfl) hf
  obtain ⟨_, rfl, rfl, _⟩ := hasks
  exact ⟨fn, hmem, hrun, hbuilder⟩

end Dao

end Tablewright
