import Tablewright.Proofs.Code.Tokens

/-! Tokens read as an expression: what stands behind an operand binds tightest, then the operators
with one operand, then those with two as the language ranks them, the left one first. -/

namespace Tablewright.Code

namespace Reading

open Text (Taken taken? taken?_of_lt)

/-- How tightly the language lets an operator with two operands bind: comparisons bind tighter than
`&&`, and that tighter than `||`. -/
def strength : BinaryOp → Nat
  | .eq | .ne | .lt | .gt | .ge => 3
  | .and => 2
  | .or => 1

mutual

/-- An expression whose operators bind at least as tightly as `needed`. -/
def binary? (needed : Nat) (ts : List Token) : Option (Expr × List Token) :=
  match taken? ts (unary? ts) with
  | some ⟨left, rest, _⟩ => operators? needed left rest
  | none => none
termination_by (ts.length, 2)

/-- The operators behind an operand, with what they are applied to. -/
def operators? (needed : Nat) (left : Expr) : List Token → Option (Expr × List Token)
  | .binary op :: ts =>
    if needed ≤ strength op then
      match taken? ts (binary? (strength op + 1) ts) with
      | some ⟨right, rest, _⟩ => operators? needed (.binary left op right) rest
      | none => none
    else some (left, .binary op :: ts)
  | ts => some (left, ts)
termination_by ts => (ts.length, 0)

def unary? : List Token → Option (Expr × List Token)
  | .unary op :: ts => (unary? ts).map fun (operand, rest) => (.unary op operand, rest)
  | ts => primary? ts
termination_by ts => (ts.length, 1)

def primary? : List Token → Option (Expr × List Token)
  | .name name :: ts =>
    if name ∈ keywords then none else postfixes? (if name = "nil" then .nil else .ident name) ts
  | .number value :: ts => postfixes? (.int value) ts
  | .text value :: ts => postfixes? (.str value) ts
  | .openParen :: ts =>
    match taken? ts (binary? 1 ts) with
    | some ⟨inner, .closeParen :: rest, _⟩ => postfixes? (.paren inner) rest
    | _ => none
  | _ => none
termination_by ts => (ts.length, 0)
decreasing_by all_goals grind

/-- The selections, arguments and positions behind an operand. -/
def postfixes? (base : Expr) : List Token → Option (Expr × List Token)
  | .period :: .name name :: ts =>
    if name ∈ keywords then none else postfixes? (.field base name) ts
  | .period :: _ => none
  | .openParen :: ts =>
    match taken? ts (arguments? ts) with
    | some ⟨args, rest, _⟩ => postfixes? (.call base args) rest
    | none => none
  | .openBracket :: ts =>
    match taken? ts (binary? 1 ts) with
    | some ⟨position, .closeBracket :: rest, _⟩ => postfixes? (.index base position) rest
    | _ => none
  | ts => some (base, ts)
termination_by ts => (ts.length, 0)
decreasing_by all_goals grind

/-- Arguments up to the closing parenthesis. A comma may stand behind the last. -/
def arguments? : List Token → Option (List Expr × List Token)
  | .closeParen :: ts => some ([], ts)
  | ts =>
    match taken? ts (binary? 1 ts) with
    | some ⟨e, .closeParen :: rest, _⟩ => some ([e], rest)
    | some ⟨e, .comma :: rest, _⟩ => (arguments? rest).map fun (es, after) => (e :: es, after)
    | _ => none
termination_by ts => (ts.length, 3)
decreasing_by all_goals grind

end

/-! ## Where a reading stops -/

/-- Nothing comes next that would stand behind an operand. -/
def Closed (rest : List Token) : Prop :=
  ∀ t ∈ rest.head?, t ≠ .period ∧ t ≠ .openParen ∧ t ≠ .openBracket

/-- An operator that comes next binds less tightly than `needed`. -/
def Looser (needed : Nat) (rest : List Token) : Prop :=
  ∀ op, rest.head? = some (.binary op) → strength op < needed

theorem postfixes?_of_closed {e : Expr} {rest : List Token} (h : Closed rest) :
    postfixes? e rest = some (e, rest) := by
  unfold postfixes?
  split
  · exact absurd rfl (h _ rfl).1
  · exact absurd rfl (h _ rfl).1
  · exact absurd rfl (h _ rfl).2.1
  · exact absurd rfl (h _ rfl).2.2
  · rfl

theorem operators?_of_looser {needed : Nat} {e : Expr} {rest : List Token}
    (h : Looser needed rest) : operators? needed e rest = some (e, rest) := by
  unfold operators?
  split
  · exact if_neg (Nat.not_le.mpr (h _ rfl))
  · rfl

/-! ## Tokens that are read as an expression -/

/-- How tightly the outermost operator of an expression binds. -/
def rank : Expr → Nat
  | .binary _ op _ => strength op
  | .unary _ _ => 4
  | _ => 5

theorem one_le_strength (op : BinaryOp) : 1 ≤ strength op := by cases op <;> decide

theorem strength_le_three (op : BinaryOp) : strength op ≤ 3 := by cases op <;> decide

theorem one_le_rank (e : Expr) : 1 ≤ rank e := by
  unfold rank
  split
  · exact one_le_strength _
  · decide
  · decide

/-- The tokens are read as the expression, as any operand that it may be. -/
structure Reads (ts : List Token) (e : Expr) : Prop where
  binary : ∀ needed ≤ rank e, ∀ rest, Closed rest → Looser (rank e + 1) rest →
    binary? needed (ts ++ rest) = operators? needed e rest
  unary : 3 < rank e → ∀ rest, Closed rest → unary? (ts ++ rest) = some (e, rest)
  primary : 4 < rank e → ∀ rest, primary? (ts ++ rest) = postfixes? e rest

namespace Reads

variable {ts : List Token} {e : Expr}

theorem ne_nil (h : Reads ts e) : ts ≠ [] := by
  rintro rfl
  have hread := h.binary (rank e) (Nat.le_refl _) [] (by simp [Closed]) (by simp [Looser])
  rw [List.nil_append, binary?, unary?, primary?, operators?] at hread
  · cases hread
  all_goals simp

theorem length_lt (h : Reads ts e) (rest : List Token) : rest.length < (ts ++ rest).length := by
  simp [List.length_pos_iff.mpr h.ne_nil]

/-- An expression is read up to what ends it. -/
theorem whole (h : Reads ts e) {needed : Nat} (hrank : needed ≤ rank e) {rest : List Token}
    (hclosed : Closed rest) (hlooser : Looser needed rest) :
    binary? needed (ts ++ rest) = some (e, rest) := by
  rw [h.binary needed hrank rest hclosed fun op hop => by have := hlooser op hop; omega,
    operators?_of_looser hlooser]

theorem of_unary (hne : ts ≠ [])
    (h : ∀ rest, Closed rest → unary? (ts ++ rest) = some (e, rest))
    (hprimary : 4 < rank e → ∀ rest, primary? (ts ++ rest) = postfixes? e rest) : Reads ts e where
  binary needed _ rest hclosed _ := by
    rw [binary?, h rest hclosed, taken?_of_lt (by simp [List.length_pos_iff.mpr hne])]
  unary _ := h
  primary := hprimary

theorem of_primary (h : ∀ rest, primary? (ts ++ rest) = postfixes? e rest) : Reads ts e := by
  have hempty : primary? ts = some (e, []) := by
    have hread := h []
    rwa [List.append_nil, postfixes?_of_closed (by simp [Closed])] at hread
  have hne : ts ≠ [] := by
    rintro rfl
    rw [primary?] at hempty
    cases hempty
    all_goals simp
  refine of_unary hne (fun rest hclosed => ?_) fun _ => h
  cases ts with
  | nil => exact absurd rfl hne
  | cons t ts =>
    have hunary : ∀ op, t ≠ .unary op := by
      rintro op rfl
      rw [primary?] at hempty
      cases hempty
      all_goals simp
    rw [List.cons_append, unary?, ← List.cons_append, h, postfixes?_of_closed hclosed]
    exact fun op _ heq => hunary op (List.cons.inj heq).1

/-! ### Operands -/

theorem nil : Reads [.name "nil"] .nil :=
  of_primary fun rest => by
    rw [List.singleton_append, primary?, if_neg (by decide), if_pos rfl]

theorem ident {name : String} (hname : name ∉ keywords) (hnil : name ≠ "nil") :
    Reads [.name name] (.ident name) :=
  of_primary fun rest => by
    rw [List.singleton_append, primary?, if_neg hname, if_neg hnil]

theorem int (value : Nat) : Reads [.number value] (.int value) :=
  of_primary fun rest => by rw [List.singleton_append, primary?]

theorem str (value : String) : Reads [.text value] (.str value) :=
  of_primary fun rest => by rw [List.singleton_append, primary?]

/-- An expression is read up to a token that closes what it stands in. -/
theorem upTo (h : Reads ts e) {close : Token}
    (hclose : close ∈ [.closeParen, .closeBracket, .comma]) (rest : List Token) :
    binary? 1 (ts ++ close :: rest) = some (e, close :: rest) := by
  simp only [List.mem_cons, List.not_mem_nil, or_false] at hclose
  refine h.whole (one_le_rank e) ?_ ?_
  · rintro t ⟨⟩
    rcases hclose with rfl | rfl | rfl <;> simp
  · rintro op ⟨⟩
    simp at hclose

theorem taken (h : Reads ts e) {close : Token}
    (hclose : close ∈ [.closeParen, .closeBracket, .comma]) (rest : List Token) :
    taken? (ts ++ close :: rest) (binary? 1 (ts ++ close :: rest)) =
      some ⟨e, close :: rest, h.length_lt _⟩ := by
  rw [h.upTo hclose, taken?_of_lt]

/-- An expression does not begin with a closing parenthesis. -/
theorem not_closing (h : Reads ts e) {close : Token}
    (hclose : close ∈ [.closeParen, .closeBracket, .comma]) (rest after : List Token) :
    ts ++ close :: rest ≠ .closeParen :: after := by
  intro heq
  have hread := h.upTo hclose rest
  rw [heq, binary?, unary?, primary?] at hread
  · cases hread
  all_goals simp

theorem paren (h : Reads ts e) : Reads (.openParen :: (ts ++ [.closeParen])) (.paren e) :=
  of_primary fun rest => by
    rw [List.cons_append, List.append_assoc, List.singleton_append, primary?, h.taken (by simp)]

theorem field (h : Reads ts e) (hbase : 4 < rank e) {name : String} (hname : name ∉ keywords) :
    Reads (ts ++ [.period, .name name]) (.field e name) :=
  of_primary fun rest => by
    rw [List.append_assoc, h.primary hbase]
    exact (postfixes?.eq_1 _ _ _).trans (if_neg hname)

theorem index {ts' : List Token} {position : Expr} (h : Reads ts e) (hbase : 4 < rank e)
    (hposition : Reads ts' position) :
    Reads (ts ++ .openBracket :: (ts' ++ [.closeBracket])) (.index e position) :=
  of_primary fun rest => by
    rw [List.append_assoc, h.primary hbase, List.cons_append, List.append_assoc,
      List.singleton_append, postfixes?, hposition.taken (by simp)]

end Reads

/-- The tokens are read as arguments, up to the closing parenthesis. -/
def ReadsArguments (ts : List Token) (es : List Expr) : Prop :=
  ∀ rest, arguments? (ts ++ .closeParen :: rest) = some (es, rest)

namespace ReadsArguments

theorem nil : ReadsArguments [] [] := fun rest => by rw [List.nil_append, arguments?]

theorem single {ts : List Token} {e : Expr} (h : Reads ts e) : ReadsArguments ts [e] := by
  intro rest
  rw [arguments?, h.taken (by simp)]
  exact fun ts' heq => h.not_closing (by simp) _ ts' heq

theorem cons {ts ts' : List Token} {e : Expr} {es : List Expr} (h : Reads ts e)
    (hrest : ReadsArguments ts' es) : ReadsArguments (ts ++ .comma :: ts') (e :: es) := by
  intro rest
  rw [List.append_assoc, List.cons_append, arguments?, h.taken (by simp)]
  · simp [hrest rest]
  · exact fun ts' heq => h.not_closing (by simp) _ ts' heq

end ReadsArguments

namespace Reads

variable {ts : List Token} {e : Expr}

theorem call {ts' : List Token} {args : List Expr} (h : Reads ts e) (hbase : 4 < rank e)
    (hargs : ReadsArguments ts' args) :
    Reads (ts ++ .openParen :: (ts' ++ [.closeParen])) (.call e args) :=
  of_primary fun rest => by
    rw [List.append_assoc, h.primary hbase, List.cons_append, List.append_assoc,
      List.singleton_append, postfixes?, hargs, taken?_of_lt (by simp; omega)]

/-! ### Operators -/

theorem unaryOp (op : UnaryOp) (h : Reads ts e) (hoperand : 3 < rank e) :
    Reads (.unary op :: ts) (.unary op e) :=
  of_unary (by simp) (fun rest hclosed => by
    rw [List.cons_append, unary?, h.unary hoperand rest hclosed]
    rfl) (by simp [rank])

theorem binaryOp {ts' : List Token} {right : Expr} (op : BinaryOp) (h : Reads ts e)
    (hleft : strength op ≤ rank e) (hright : Reads ts' right) (hlt : strength op < rank right) :
    Reads (ts ++ .binary op :: ts') (.binary e op right) where
  binary needed hneeded rest hclosed hlooser := by
    have hneeded : needed ≤ strength op := hneeded
    have hend : binary? (strength op + 1) (ts' ++ rest) = some (right, rest) :=
      hright.whole hlt hclosed hlooser
    have hop : Closed (.binary op :: (ts' ++ rest)) := by
      rintro t ⟨⟩
      simp
    have hnext : Looser (rank e + 1) (.binary op :: (ts' ++ rest)) := by
      rintro op' ⟨⟩
      exact Nat.lt_succ_of_le hleft
    have hfirst := h.binary needed (Nat.le_trans hneeded hleft) _ hop hnext
    rw [List.append_assoc, List.cons_append, hfirst, operators?, if_pos hneeded, hend,
      taken?_of_lt (hright.length_lt rest)]
  unary hrank := absurd hrank (Nat.not_lt.mpr (strength_le_three op))
  primary hrank := absurd hrank (Nat.not_lt.mpr (Nat.le_succ_of_le (strength_le_three op)))

end Reads

end Reading

/-- The expression that a text is, read to its end. -/
def Expr.ofText? (u : Alphabet) (text : String) : Option Expr :=
  match ((scanner u).tokens? text.toList).bind (Reading.binary? 1) with
  | some (e, []) => some e
  | _ => none

end Tablewright.Code
