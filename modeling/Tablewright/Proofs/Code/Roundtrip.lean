import Tablewright.Proofs.Code.Reading

/-! An expression is read back from its text. The text has parentheses around the operands that
bind less tightly than their places ask for, and the expression that is read has them as well. -/

namespace Tablewright.Code

open Reading

namespace Expr

/-! ## Expressions up to parentheses -/

mutual

/-- The expression without parentheses. Types, literals of composed types and functions are left as
they are. -/
def bare : Expr → Expr
  | .field base name => .field base.bare name
  | .call callee args => .call callee.bare (bareArgs args)
  | .index base position => .index base.bare position.bare
  | .unary op operand => .unary op operand.bare
  | .binary left op right => .binary left.bare op right.bare
  | .paren inner => inner.bare
  | e => e

def bareArgs : List Expr → List Expr
  | [] => []
  | e :: es => e.bare :: bareArgs es

end

/-- In parentheses if it binds less tightly than its place asks for. -/
def wrap (needed : Nat) (e : Expr) : Expr := if rank e < needed then .paren e else e

mutual

/-- The expression with the parentheses around its operands that the language asks for. -/
def explicit : Expr → Expr
  | .field base name => .field base.explicit name
  | .call callee args => .call callee.explicit (explicitArgs args)
  | .index base position => .index base.explicit position.explicit
  | .unary op operand => .unary op (wrap 4 operand.explicit)
  | .binary left op right =>
    .binary (wrap (strength op) left.explicit) op (wrap (strength op + 1) right.explicit)
  | .paren inner => .paren inner.explicit
  | e => e

def explicitArgs : List Expr → List Expr
  | [] => []
  | e :: es => e.explicit :: explicitArgs es

end

theorem bare_wrap (needed : Nat) (e : Expr) : (wrap needed e).bare = e.bare := by
  unfold wrap
  split
  · rfl
  · rfl

mutual

/-- Nothing but parentheses is added. -/
theorem bare_explicit (e : Expr) : e.explicit.bare = e.bare := by
  cases e with
  | field base name => rw [explicit, bare, bare_explicit base, bare]
  | call callee args => rw [explicit, bare, bare_explicit callee, bareArgs_explicitArgs args, bare]
  | index base position => rw [explicit, bare, bare_explicit base, bare_explicit position, bare]
  | unary op operand => rw [explicit, bare, bare_wrap, bare_explicit operand, bare]
  | binary left op right =>
    rw [explicit, bare, bare_wrap, bare_wrap, bare_explicit left, bare_explicit right, bare]
  | paren inner => rw [explicit, bare, bare_explicit inner, bare]
  | _ => rfl

theorem bareArgs_explicitArgs (es : List Expr) : bareArgs (explicitArgs es) = bareArgs es := by
  cases es with
  | nil => rfl
  | cons e es => rw [explicitArgs, bareArgs, bare_explicit e, bareArgs_explicitArgs es, bareArgs]

end

@[simp] theorem rank_explicit (e : Expr) : rank e.explicit = rank e := by cases e <;> rfl

/-! ## The expressions that are read back -/

/-- What a selection, arguments and a position may be written behind. -/
def isBase : Expr → Bool
  | .ident _ | .field _ _ | .call _ _ | .index _ _ | .paren _ => true
  | _ => false

/-- Expressions without types, literals of composed types and functions. -/
inductive Basic (u : Alphabet) : Expr → Prop
  | ident {name : String} (hname : u.IsName name) (hnil : name ≠ "nil") : Basic u (.ident name)
  | nil : Basic u .nil
  | str (value : String) : Basic u (.str value)
  | int (value : Nat) : Basic u (.int value)
  | paren {inner : Expr} (hinner : Basic u inner) : Basic u (.paren inner)
  | field {base : Expr} {name : String} (hbase : Basic u base) (isBase : base.isBase = true)
      (hname : u.IsName name) : Basic u (.field base name)
  | call {callee : Expr} {args : List Expr} (hcallee : Basic u callee)
      (isBase : callee.isBase = true) (hargs : ∀ arg ∈ args, Basic u arg) :
      Basic u (.call callee args)
  | index {base position : Expr} (hbase : Basic u base) (isBase : base.isBase = true)
      (hposition : Basic u position) : Basic u (.index base position)
  /-- An address has none itself. -/
  | unary {op : UnaryOp} {operand : Expr} (hoperand : Basic u operand)
      (haddr : op = .addr → ∀ inner, operand ≠ .unary .addr inner) : Basic u (.unary op operand)
  | binary {left right : Expr} (op : BinaryOp) (hleft : Basic u left) (hright : Basic u right) :
      Basic u (.binary left op right)

end Expr

/-! ## The text of an expression -/

section Spelled

variable {u : Alphabet}

/-- What stands at the beginning of an expression that an operator can be written before. -/
def Begins (e : Expr) (cs : List Char) : Prop :=
  ∃ c, cs.head? = some c ∧ c ≠ '=' ∧ c ≠ '^' ∧
    (c = '&' → rank e ≤ 3 ∨ ∃ inner, e = .unary .addr inner)

/-- The characters are the tokens of the expression. -/
structure Spelled (u : Alphabet) (cs : List Char) (ts : List Token) (e : Expr) : Prop where
  writes : Writes u (NumberEnds u) cs ts
  writesBase : e.isBase = true → Writes u (NameEnds u) cs ts
  reads : Reads ts e
  begins : Begins e cs

theorem NumberEnds.nameEnds {rest : List Char} (h : NumberEnds u rest) : NameEnds u rest :=
  fun c hc => (h c hc).1

theorem numberEnds_cons {c : Char} (hc : u.continues c = false) (hpoint : c ≠ '.')
    (rest : List Char) : NumberEnds u (c :: rest) := by
  rintro d ⟨⟩
  exact ⟨hc, hpoint⟩

theorem ne_of_isLetter {c d : Char} (h : u.isLetter c = true) (hd : u.isLetter d = false) :
    c ≠ d := by
  rintro rfl
  exact Bool.false_ne_true (hd.symm.trans h)

namespace Begins

variable {e : Expr} {cs : List Char}

theorem of_isLetter {c : Char} (hc : u.isLetter c = true) (e : Expr) (cs : List Char) :
    Begins e (c :: cs) :=
  ⟨c, rfl, ne_of_isLetter hc rfl, ne_of_isLetter hc rfl,
    fun heq => absurd heq (ne_of_isLetter hc rfl)⟩

theorem of_isName {name : String} (h : u.IsName name) (e : Expr) : Begins e name.toList := by
  obtain ⟨c, cs, hname, hc, _⟩ := h.spelled
  rw [hname]
  exact of_isLetter hc e cs

/-- A mark that begins no other operator. -/
theorem of_mark {c : Char} (h : c ≠ '=' ∧ c ≠ '^' ∧ c ≠ '&') (e : Expr) (cs : List Char) :
    Begins e (c :: cs) :=
  ⟨c, rfl, h.1, h.2.1, fun heq => absurd heq h.2.2⟩

theorem append (h : Begins e cs) (cs' : List Char) {e' : Expr}
    (he : rank e ≤ 3 ∨ (∃ inner, e = .unary .addr inner) →
      rank e' ≤ 3 ∨ ∃ inner, e' = .unary .addr inner) : Begins e' (cs ++ cs') := by
  obtain ⟨c, hc, heq, hcaret, hamp⟩ := h
  exact ⟨c, by rw [List.head?_append, hc, Option.some_or], heq, hcaret, fun h => he (hamp h)⟩

end Begins

theorem isName_nil : u.IsName "nil" where
  spelled := ⟨'n', ['i', 'l'], rfl, rfl,
    List.forall_mem_cons.mpr ⟨rfl, List.forall_mem_singleton.mpr rfl⟩⟩
  notKeyword := by decide

theorem four_lt_rank {e : Expr} (h : e.isBase = true) : 4 < rank e := by
  cases e <;> first | exact Nat.lt_succ_self 4 | cases h

theorem not_addr {e : Expr} (h : e.isBase = true) :
    ¬(rank e ≤ 3 ∨ ∃ inner, e = .unary .addr inner) := by
  have hrank := four_lt_rank h
  rintro (hle | ⟨inner, rfl⟩)
  · omega
  · cases h

namespace Spelled

variable {cs : List Char} {ts : List Token} {e : Expr}

theorem ident {name : String} (hname : u.IsName name) (hnil : name ≠ "nil") :
    Spelled u name.toList [.name name] (.ident name) where
  writes := (Writes.name hname).weaken fun _ => NumberEnds.nameEnds
  writesBase _ := .name hname
  reads := .ident hname.notKeyword hnil
  begins := .of_isName hname _

theorem nil : Spelled u "nil".toList [.name "nil"] .nil where
  writes := (Writes.name isName_nil).weaken fun _ => NumberEnds.nameEnds
  writesBase h := nomatch h
  reads := .nil
  begins := .of_isName (u := u) isName_nil _

theorem str (value : String) : Spelled u (quote value).toList [.text value] (.str value) where
  writes := .text value
  writesBase _ := .text value
  reads := .str value
  begins := by
    rw [quote, String.toList_ofList]
    exact .of_mark (by decide) _ _

theorem int (value : Nat) :
    Spelled u (toString (value : Int)).toList [.number value] (.int value) where
  writes := .number value
  writesBase h := nomatch h
  reads := .int value
  begins := by
    obtain ⟨c, cs, hchars, hc⟩ := exists_digit_toString value
    rw [hchars]
    refine .of_mark ⟨?_, ?_, ?_⟩ _ _ <;> rintro rfl <;> cases hc

theorem paren (h : Spelled u cs ts e) :
    Spelled u ('(' :: (cs ++ [')'])) (.openParen :: (ts ++ [.closeParen])) (.paren e) := by
  have hwrites : ∀ {follow}, Writes u follow ('(' :: (cs ++ [')']))
      (.openParen :: (ts ++ [.closeParen])) := by
    intro follow
    have hinner : Writes u follow (cs ++ [')']) (ts ++ [.closeParen]) :=
      h.writes.append Writes.closeParen fun rest _ => numberEnds_cons rfl (by decide) rest
    exact Writes.openParen.followedBy hinner
  exact ⟨hwrites, fun _ => hwrites, h.reads.paren, .of_mark (by decide) _ _⟩

theorem field (h : Spelled u cs ts e) (hbase : e.isBase = true) {name : String}
    (hname : u.IsName name) :
    Spelled u (cs ++ '.' :: name.toList) (ts ++ [.period, .name name]) (.field e name) := by
  have hpoint : Writes u (fun rest => rest.head? ≠ some '.') ['.'] [.period] :=
    .of_scan rfl fun rest hrest => scan?_period (u := u) hrest
  have hstart : ∀ rest, (name.toList ++ rest).head? ≠ some '.' := by
    intro rest heq
    obtain ⟨c, cs, hchars, hc, _⟩ := hname.spelled
    rw [hchars] at heq
    exact ne_of_isLetter hc rfl (Option.some.inj heq)
  have hselect : Writes u (NameEnds u) ('.' :: name.toList) [.period, .name name] :=
    hpoint.append (Writes.name hname) fun rest _ => hstart rest
  have hwrites : Writes u (NameEnds u) (cs ++ '.' :: name.toList) (ts ++ [.period, .name name]) :=
    (h.writesBase hbase).append hselect fun rest _ => by rintro c ⟨⟩; rfl
  exact ⟨hwrites.weaken fun _ => NumberEnds.nameEnds, fun _ => hwrites,
    h.reads.field (four_lt_rank hbase) hname.notKeyword,
    h.begins.append _ fun he => absurd he (not_addr hbase)⟩

theorem index {cs' : List Char} {ts' : List Token} {position : Expr} (h : Spelled u cs ts e)
    (hbase : e.isBase = true) (hposition : Spelled u cs' ts' position) :
    Spelled u (cs ++ '[' :: (cs' ++ [']'])) (ts ++ .openBracket :: (ts' ++ [.closeBracket]))
      (.index e position) := by
  have hwrites : ∀ {follow}, Writes u follow (cs ++ '[' :: (cs' ++ [']']))
      (ts ++ .openBracket :: (ts' ++ [.closeBracket])) := by
    intro follow
    have hinner : Writes u follow (cs' ++ [']']) (ts' ++ [.closeBracket]) :=
      hposition.writes.append Writes.closeBracket fun rest _ => numberEnds_cons rfl (by decide) rest
    exact (h.writesBase hbase).append (Writes.openBracket.followedBy hinner)
      fun rest _ => by rintro c ⟨⟩; rfl
  exact ⟨hwrites, fun _ => hwrites, h.reads.index (four_lt_rank hbase) hposition.reads,
    h.begins.append _ fun he => absurd he (not_addr hbase)⟩

theorem unary (op : UnaryOp) (h : Spelled u cs ts e) (hrank : 3 < rank e)
    (haddr : op = .addr → ∀ inner, e ≠ .unary .addr inner) :
    Spelled u (op.render.toList ++ cs) (.unary op :: ts) (.unary op e) := by
  obtain ⟨c, hc, heq, hcaret, hamp⟩ := h.begins
  have hnext : ∀ rest, (cs ++ rest).head? = some c := fun rest => by
    rw [List.head?_append, hc, Option.some_or]
  have hstart : ∀ rest, (cs ++ rest).head? ≠ some '=' ∧
      (op = .addr → (cs ++ rest).head? ≠ some '&' ∧ (cs ++ rest).head? ≠ some '^') := by
    intro rest
    rw [hnext]
    refine ⟨fun h => heq (Option.some.inj h), fun hop => ⟨fun h => ?_, fun h => ?_⟩⟩
    · rcases hamp (Option.some.inj h) with hle | ⟨inner, hinner⟩
      · omega
      · exact haddr hop inner hinner
    · exact hcaret (Option.some.inj h)
  refine ⟨(Writes.unary op).append h.writes fun rest _ => hstart rest, nofun,
    h.reads.unaryOp op hrank, ?_⟩
  cases op with
  | addr => exact ⟨'&', rfl, by decide, by decide, fun _ => .inr ⟨e, rfl⟩⟩
  | deref => exact .of_mark (by decide) _ _
  | not => exact .of_mark (by decide) _ _

theorem binary {cs' : List Char} {ts' : List Token} {right : Expr} (op : BinaryOp)
    (h : Spelled u cs ts e) (hleft : strength op ≤ rank e) (hright : Spelled u cs' ts' right)
    (hlt : strength op < rank right) :
    Spelled u (cs ++ (' ' :: (op.render.toList ++ [' ']) ++ cs')) (ts ++ .binary op :: ts')
      (.binary e op right) where
  writes := by
    exact h.writes.append ((Writes.binary op).followedBy hright.writes)
      fun rest _ => numberEnds_cons rfl (by decide) _
  writesBase := nofun
  reads := h.reads.binaryOp op hleft hright.reads hlt
  begins := h.begins.append _ fun _ => .inl (strength_le_three op)

end Spelled

/-- The characters are the tokens of arguments with the closing parenthesis after them. -/
structure SpelledArguments (u : Alphabet) (cs : List Char) (ts : List Token) (es : List Expr) :
    Prop where
  writes : ∀ follow, Writes u follow (cs ++ [')']) (ts ++ [.closeParen])
  reads : ReadsArguments ts es

namespace SpelledArguments

theorem nil : SpelledArguments u [] [] [] := ⟨fun _ => .closeParen, .nil⟩

variable {cs cs' : List Char} {ts ts' : List Token} {e : Expr} {es : List Expr}

theorem single (h : Spelled u cs ts e) : SpelledArguments u cs ts [e] where
  writes _ := h.writes.append Writes.closeParen fun rest _ => numberEnds_cons rfl (by decide) rest
  reads := .single h.reads

theorem cons (h : Spelled u cs ts e) (hrest : SpelledArguments u cs' ts' es) :
    SpelledArguments u (cs ++ ([',', ' '] ++ cs')) (ts ++ .comma :: ts') (e :: es) where
  writes follow := by
    have hmore := Writes.comma.followedBy (hrest.writes follow)
    simpa using h.writes.append hmore fun rest _ => numberEnds_cons rfl (by decide) _
  reads := .cons h.reads hrest.reads

end SpelledArguments

theorem Spelled.call {cs cs' : List Char} {ts ts' : List Token} {e : Expr} {args : List Expr}
    (h : Spelled u cs ts e) (hbase : e.isBase = true) (hargs : SpelledArguments u cs' ts' args) :
    Spelled u (cs ++ '(' :: (cs' ++ [')'])) (ts ++ .openParen :: (ts' ++ [.closeParen]))
      (.call e args) := by
  have hwrites : ∀ {follow}, Writes u follow (cs ++ '(' :: (cs' ++ [')']))
      (ts ++ .openParen :: (ts' ++ [.closeParen])) := by
    intro follow
    exact (h.writesBase hbase).append (Writes.openParen.followedBy (hargs.writes follow))
      fun rest _ => by rintro c ⟨⟩; rfl
  exact ⟨hwrites, fun _ => hwrites, h.reads.call (four_lt_rank hbase) hargs.reads,
    h.begins.append _ fun he => absurd he (not_addr hbase)⟩

end Spelled

/-! ## The text of an expression is read back -/

namespace Expr

variable {u : Alphabet}

/-- Some tokens of the text are read as the expression with the parentheses that are written. -/
def Legible (u : Alphabet) (level : Nat) (e : Expr) : Prop :=
  ∃ ts, Spelled u (e.render level).toList ts e.explicit

/-- Parentheses are written by the order that the language has. -/
theorem precedence_eq_strength (op : BinaryOp) : op.precedence = strength op := by cases op <;> rfl

theorem toList_guarded {needed : Nat} (hneeded : needed ≤ 4) (e : Expr) (text : String) :
    (guarded needed e text).toList =
      if rank e < needed then '(' :: (text.toList ++ [')']) else text.toList := by
  unfold guarded
  split
  · next op _ =>
    rw [rank, precedence_eq_strength]
    by_cases hlt : strength op < needed
    · rw [if_pos hlt, if_pos hlt]
      simp
    · rw [if_neg hlt, if_neg hlt]
  · next hbinary =>
    have hrank : needed ≤ rank e := by
      unfold rank
      split
      · next left op right => exact absurd rfl (hbinary left op right)
      · exact hneeded
      · omega
    rw [if_neg (Nat.not_lt.mpr hrank)]

theorem unaryOperand_eq_guarded (e : Expr) (text : String) :
    unaryOperand e text = guarded 4 e text := by
  unfold unaryOperand guarded
  split
  · next op _ =>
    have hlt : op.precedence < 4 := by
      rw [precedence_eq_strength]
      exact Nat.lt_succ_of_le (strength_le_three op)
    rw [if_pos hlt]
  · rfl

/-- An operand is legible at its place, in parentheses or not. -/
theorem Legible.operand {level : Nat} {e : Expr} (h : Legible u level e) (needed : Nat)
    (hneeded : needed ≤ 4) :
    ∃ ts, Spelled u (guarded needed e (e.render level)).toList ts (wrap needed e.explicit) ∧
      needed ≤ rank (wrap needed e.explicit) := by
  obtain ⟨ts, hts⟩ := h
  rw [toList_guarded hneeded, wrap, rank_explicit]
  split
  · exact ⟨_, hts.paren, Nat.le_succ_of_le hneeded⟩
  · next hlt => exact ⟨_, hts, by rw [rank_explicit]; exact Nat.not_lt.mp hlt⟩

theorem legible_arguments {level : Nat} {args : List Expr}
    (h : ∀ arg ∈ args, Legible u level arg) :
    ∃ ts, SpelledArguments u (renderExprs level args).toList ts (explicitArgs args) := by
  induction args with
  | nil => exact ⟨_, .nil⟩
  | cons arg args ih =>
    obtain ⟨⟨ts, hts⟩, hargs⟩ := List.forall_mem_cons.mp h
    obtain ⟨ts', hts'⟩ := ih hargs
    cases args with
    | nil => exact ⟨_, .single hts⟩
    | cons arg' args =>
      have htext : (renderExprs level (arg :: arg' :: args)).toList =
          (arg.render level).toList ++
            ([',', ' '] ++ (renderExprs level (arg' :: args)).toList) := by
        simp [renderExprs]
      rw [htext]
      exact ⟨_, .cons hts hts'⟩

/-- An operand that is no address is none with its parentheses either. -/
theorem wrap_explicit_ne_addr {needed : Nat} {e : Expr} (h : ∀ inner, e ≠ .unary .addr inner)
    (inner : Expr) : wrap needed e.explicit ≠ .unary .addr inner := by
  unfold wrap
  split
  · nofun
  · intro heq
    cases e <;> cases heq
    exact h _ rfl

@[simp] theorem isBase_explicit (e : Expr) : e.explicit.isBase = e.isBase := by cases e <;> rfl

theorem Basic.legible {e : Expr} (h : Basic u e) (level : Nat) : Legible u level e := by
  induction h with
  | ident hname hnil => exact ⟨_, .ident hname hnil⟩
  | nil => exact ⟨_, .nil⟩
  | str value => exact ⟨_, .str value⟩
  | int value => exact ⟨_, .int value⟩
  | @paren inner hinner ih =>
    obtain ⟨ts, hts⟩ := ih
    have htext : (render level (.paren inner)).toList =
        '(' :: ((inner.render level).toList ++ [')']) := by simp [render]
    exact ⟨_, htext ▸ hts.paren⟩
  | @field base name hbase isBase hname ih =>
    obtain ⟨ts, hts⟩ := ih
    have htext : (render level (.field base name)).toList =
        (base.render level).toList ++ '.' :: name.toList := by simp [render]
    exact ⟨_, htext ▸ hts.field (by rwa [isBase_explicit]) hname⟩
  | @call callee args hcallee isBase hargs ih ihargs =>
    obtain ⟨ts, hts⟩ := ih
    obtain ⟨ts', hts'⟩ := legible_arguments ihargs
    have htext : (render level (.call callee args)).toList = (callee.render level).toList ++
        '(' :: ((renderExprs level args).toList ++ [')']) := by simp [render]
    exact ⟨_, htext ▸ hts.call (by rwa [isBase_explicit]) hts'⟩
  | @index base position hbase isBase hposition ih ihposition =>
    obtain ⟨ts, hts⟩ := ih
    obtain ⟨ts', hts'⟩ := ihposition
    have htext : (render level (.index base position)).toList = (base.render level).toList ++
        '[' :: ((position.render level).toList ++ [']']) := by simp [render]
    exact ⟨_, htext ▸ hts.index (by rwa [isBase_explicit]) hts'⟩
  | @unary op operand hoperand haddr ih =>
    obtain ⟨ts, hts, hrank⟩ := ih.operand 4 (Nat.le_refl 4)
    have htext : (render level (.unary op operand)).toList =
        op.render.toList ++ (guarded 4 operand (operand.render level)).toList := by
      simp [render, unaryOperand_eq_guarded]
    have hunary := hts.unary op hrank fun hop => wrap_explicit_ne_addr (haddr hop)
    exact ⟨_, htext ▸ hunary⟩
  | @binary left right op hleft hright ihleft ihright =>
    have hop := strength_le_three op
    obtain ⟨ts, hts, hrank⟩ := ihleft.operand (strength op) (by omega)
    obtain ⟨ts', hts', hrank'⟩ := ihright.operand (strength op + 1) (by omega)
    have htext : (render level (.binary left op right)).toList =
        (guarded (strength op) left (left.render level)).toList ++
          (' ' :: (op.render.toList ++ [' ']) ++
            (guarded (strength op + 1) right (right.render level)).toList) := by
      simp [render, precedence_eq_strength]
    have hbinary := hts.binary op hrank hts' hrank'
    exact ⟨_, htext ▸ hbinary⟩

/-- An expression is read back from its text with the parentheses that were written. -/
theorem Basic.ofText?_render {e : Expr} (h : Basic u e) (level : Nat) :
    ofText? u (e.render level) = some e.explicit := by
  obtain ⟨ts, hts⟩ := h.legible level
  have htokens : (scanner u).tokens? (e.render level).toList = some ts :=
    hts.writes.tokens? (by simp [NumberEnds])
  have hread : binary? 1 ts = some (e.explicit, []) := by
    have hwhole : binary? 1 (ts ++ []) = some (e.explicit, []) :=
      hts.reads.whole (one_le_rank _) (by simp [Closed]) (by simp [Looser])
    rwa [List.append_nil] at hwhole
  rw [ofText?, htokens, Option.bind_some, hread]

/-- The text of an expression is read to its end, as the expression up to parentheses. So
expressions with one text differ in parentheses only. -/
theorem render_keeps_structure (u : Alphabet) {e : Expr} (h : Basic u e) (level : Nat) :
    (∃ read, ofText? u (e.render level) = some read ∧ read.bare = e.bare) ∧
      ∀ other level', Basic u other → other.render level' = e.render level →
        other.bare = e.bare := by
  refine ⟨⟨_, h.ofText?_render level, bare_explicit e⟩, ?_⟩
  intro other level' hother htext
  have hread : some other.explicit = some e.explicit := by
    rw [← hother.ofText?_render level', htext, h.ofText?_render level]
  rw [← bare_explicit other, Option.some.inj hread, bare_explicit]

/-- No letters and digits beyond ASCII. -/
def asciiOnly : Alphabet := ⟨fun _ => false, fun _ => false⟩

/-- The expression `!(a || b) && c.f(1) == nil`. -/
theorem render_keeps_structure_of_condition :
    let e : Expr := .and (.not (.or (.ident "a") (.ident "b")))
      (.eq (.method (.ident "c") "f" [.int 1]) .nil)
    Basic asciiOnly e ∧
      (∃ read, ofText? asciiOnly (e.render 0) = some read ∧ read.bare = e.bare) ∧
        ∀ other level', Basic asciiOnly other → other.render level' = e.render 0 →
          other.bare = e.bare := by
  intro e
  have ha : asciiOnly.IsName "a" := ⟨⟨'a', [], rfl, rfl, nofun⟩, by decide⟩
  have hb : asciiOnly.IsName "b" := ⟨⟨'b', [], rfl, rfl, nofun⟩, by decide⟩
  have hc : asciiOnly.IsName "c" := ⟨⟨'c', [], rfl, rfl, nofun⟩, by decide⟩
  have hf : asciiOnly.IsName "f" := ⟨⟨'f', [], rfl, rfl, nofun⟩, by decide⟩
  have he : Basic asciiOnly e :=
    .binary _ (.unary (.binary _ (.ident ha (by decide)) (.ident hb (by decide))) nofun)
      (.binary _ (.call (.field (.ident hc (by decide)) rfl hf) rfl
        (List.forall_mem_singleton.mpr (.int 1))) .nil)
  exact ⟨he, render_keeps_structure asciiOnly he 0⟩

end Expr

end Tablewright.Code
