import Tablewright.Sql.Phrase

/-! What a phrase can give. `Gives p good` says that every result of the phrase is good, wherever it
is read; there is one rule for each way of putting phrases together. Most of a grammar only checks
the form, so most rules let the results of the parts go. -/

namespace Tablewright.Sql.Phrase

variable {α β : Type}

/-- Whatever the phrase reads is good. -/
def Gives (p : Phrase α) (good : α → Prop) : Prop :=
  ∀ ts a rest, p ts = some (a, rest) → good a

theorem Gives.mono {p : Phrase α} {good better : α → Prop} (h : Gives p better)
    (hle : ∀ a, better a → good a) : Gives p good := by
  intro ts a rest hp
  exact hle a (h ts a rest hp)

theorem gives_pure {a : α} {good : α → Prop} (h : good a) : Gives (pure a) good := by
  intro ts b rest hp
  cases hp
  exact h

theorem bind_eq_some {p : Phrase α} {f : α → Phrase β} {ts rest : List Token} {b : β} :
    (p >>= f) ts = some (b, rest) ↔ ∃ a mid, p ts = some (a, mid) ∧ f a mid = some (b, rest) := by
  show (p ts).bind (fun r => f r.1 r.2) = some (b, rest) ↔ _
  rw [Option.bind_eq_some_iff]
  exact Prod.exists

theorem Gives.bind {p : Phrase α} {f : α → Phrase β} {first : α → Prop} {good : β → Prop}
    (hp : Gives p first) (hf : ∀ a, first a → Gives (f a) good) : Gives (p >>= f) good := by
  intro ts b rest h
  obtain ⟨a, mid, ha, hb⟩ := bind_eq_some.mp h
  exact hf a (hp ts a mid ha) mid b rest hb

/-- What comes first does not matter. -/
theorem gives_then {p : Phrase α} {f : α → Phrase β} {good : β → Prop}
    (hf : ∀ a, Gives (f a) good) : Gives (p >>= f) good := by
  intro ts b rest h
  obtain ⟨a, mid, _, hb⟩ := bind_eq_some.mp h
  exact hf a mid b rest hb

theorem Gives.map {p : Phrase α} {f : α → β} {good : β → Prop} (h : Gives p (fun a => good (f a))) :
    Gives (f <$> p) good := by
  intro ts b rest hp
  change (p ts).bind (fun r => some (f r.1, r.2)) = some (b, rest) at hp
  obtain ⟨⟨a, mid⟩, ha, hb⟩ := Option.bind_eq_some_iff.mp hp
  cases hb
  exact h ts a mid ha

theorem Gives.orElse {p q : Phrase α} {good : α → Prop} (hp : Gives p good) (hq : Gives q good) :
    Gives (p <|> q) good := by
  intro ts a rest h
  change (p ts).orElse (fun _ => q ts) = some (a, rest) at h
  cases hpts : p ts with
  | none =>
    rw [hpts] at h
    exact hq ts a rest h
  | some r =>
    rw [hpts] at h
    cases h
    exact hp ts a rest hpts

theorem Gives.parens {p : Phrase α} {good : α → Prop} (h : Gives p good) :
    Gives (Phrase.parens p) good := by
  unfold Phrase.parens
  apply gives_then
  intro _
  refine h.bind ?_
  intro a ha
  apply gives_then
  intro _
  exact gives_pure ha

theorem Gives.maybe {p : Phrase α} {good : α → Prop} (h : Gives p good) :
    Gives (Phrase.maybe p) (fun o => ∀ a, o = some a → good a) := by
  unfold Phrase.maybe
  refine .orElse (.map ?_) (gives_pure (by simp))
  refine h.mono ?_
  intro a ha b hb
  cases hb
  exact ha

theorem Gives.upTo {p : Phrase α} {good : α → Prop} (h : Gives p good) (limit : Nat) :
    Gives (Phrase.upTo p limit) (fun xs => ∀ x ∈ xs, good x) := by
  induction limit with
  | zero => exact gives_pure (by simp)
  | succ limit ih =>
    unfold Phrase.upTo
    refine h.maybe.bind ?_
    intro o ho
    cases o with
    | none => exact gives_pure (by simp)
    | some a =>
      refine ih.bind ?_
      intro rest hrest
      exact gives_pure (List.forall_mem_cons.mpr ⟨ho a rfl, hrest⟩)

theorem Gives.many {p : Phrase α} {good : α → Prop} (h : Gives p good) :
    Gives (Phrase.many p) (fun xs => ∀ x ∈ xs, good x) := by
  intro ts
  exact h.upTo ts.length ts

theorem Gives.commaList {p : Phrase α} {good : α → Prop} (h : Gives p good) :
    Gives (Phrase.commaList p) (fun xs => xs ≠ [] ∧ ∀ x ∈ xs, good x) := by
  unfold Phrase.commaList
  refine h.bind ?_
  intro first hfirst
  have item : Gives (do mark ","; p) good := by
    apply gives_then
    intro _
    exact h
  refine item.many.bind ?_
  intro rest hrest
  exact gives_pure ⟨List.cons_ne_nil first rest, List.forall_mem_cons.mpr ⟨hfirst, hrest⟩⟩

theorem nameList_ne_nil : Gives nameList (· ≠ []) := by
  have any : Gives identifier (fun _ => True) := fun _ _ _ _ => trivial
  exact any.commaList.parens.mono fun _ h => h.1

end Tablewright.Sql.Phrase
