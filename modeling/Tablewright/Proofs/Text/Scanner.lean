/-! Text taken apart into tokens, and tokens read as what they spell. What is written piece by piece
is taken apart piece by piece, as long as no token goes on in what follows it. -/

namespace Tablewright.Text

/-! ## Tokens of a text -/

/-- What may stand between tokens, and the token that a text begins with, with what follows it. -/
structure Scanner (τ : Type) where
  isBlank : Char → Bool
  scan? : List Char → Option (τ × List Char)

namespace Scanner

variable {τ : Type}

def tokens? (s : Scanner τ) (cs : List Char) : Option (List τ) :=
  match cs with
  | [] => some []
  | c :: rest =>
    if s.isBlank c then s.tokens? rest
    else match s.scan? (c :: rest) with
      | some (t, after) =>
        -- a token is never empty
        if after.length ≤ rest.length then (s.tokens? after).map (t :: ·) else none
      | none => none
termination_by cs.length

variable {s : Scanner τ}

theorem tokens?_nil : s.tokens? [] = some [] := by rw [tokens?]

theorem tokens?_blank {c : Char} (hc : s.isBlank c = true) (cs : List Char) :
    s.tokens? (c :: cs) = s.tokens? cs := by
  rw [tokens?]
  exact if_pos hc

theorem tokens?_cons {c : Char} {cs after : List Char} {t : τ} (hc : s.isBlank c = false)
    (hs : s.scan? (c :: cs) = some (t, after)) (hlen : after.length ≤ cs.length) :
    s.tokens? (c :: cs) = (s.tokens? after).map (t :: ·) := by
  rw [tokens?, if_neg (by simp [hc]), hs]
  exact if_pos hlen

/-- The characters are these tokens wherever what follows them is such that none goes on. -/
def Writes (s : Scanner τ) (follow : List Char → Prop) (cs : List Char) (ts : List τ) : Prop :=
  ∀ rest, follow rest → s.tokens? (cs ++ rest) = (s.tokens? rest).map (ts ++ ·)

namespace Writes

variable {follow follow' : List Char → Prop} {cs cs' : List Char} {ts ts' : List τ}

theorem weaken (h : s.Writes follow cs ts) (hf : ∀ rest, follow' rest → follow rest) :
    s.Writes follow' cs ts :=
  fun rest hrest => h rest (hf rest hrest)

theorem append (h : s.Writes follow cs ts) (h' : s.Writes follow' cs' ts')
    (hf : ∀ rest, follow' rest → follow (cs' ++ rest)) :
    s.Writes follow' (cs ++ cs') (ts ++ ts') := by
  intro rest hrest
  rw [List.append_assoc, h _ (hf rest hrest), h' rest hrest, Option.map_map]
  simp [Function.comp_def]

/-- Text that nothing can go on in may be followed by any. -/
theorem followedBy (h : s.Writes (fun _ => True) cs ts) (h' : s.Writes follow cs' ts') :
    s.Writes follow (cs ++ cs') (ts ++ ts') :=
  h.append h' fun _ _ => trivial

theorem of_scan {c : Char} {t : τ} (hc : s.isBlank c = false)
    (h : ∀ rest, follow rest → s.scan? (c :: (cs ++ rest)) = some (t, rest)) :
    s.Writes follow (c :: cs) [t] := by
  intro rest hrest
  rw [List.cons_append, tokens?_cons hc (h rest hrest) (by simp)]
  rfl

theorem nil : s.Writes follow [] [] := by
  intro rest _
  simp

theorem blanks (h : ∀ c ∈ cs, s.isBlank c = true) : s.Writes follow cs [] := by
  intro rest hrest
  induction cs with
  | nil => exact nil rest hrest
  | cons c cs ih =>
    obtain ⟨hc, hcs⟩ := List.forall_mem_cons.mp h
    rw [List.cons_append, tokens?_blank hc, ih hcs]

/-- A token of one character that nothing after it changes. -/
theorem mark {c : Char} {t : τ} (hc : s.isBlank c = false)
    (h : ∀ rest, s.scan? (c :: rest) = some (t, rest)) : s.Writes follow [c] [t] :=
  of_scan hc fun rest _ => h rest

/-- All of a text. -/
theorem tokens? (h : s.Writes follow cs ts) (hend : follow []) : s.tokens? cs = some ts := by
  have hwrites := h [] hend
  rw [List.append_nil, tokens?_nil, Option.map_some, List.append_nil] at hwrites
  exact hwrites

end Writes

end Scanner

/-! ## Readings of tokens -/

section Taken

variable {τ α : Type} {ts rest : List τ}

/-- A reading that took at least one of the tokens. -/
structure Taken (α : Type) (ts : List τ) where
  value : α
  rest : List τ
  shorter : rest.length < ts.length

/-- Gives up on a reading that took no token. -/
def taken? (ts : List τ) : Option (α × List τ) → Option (Taken α ts)
  | some (value, rest) => if h : rest.length < ts.length then some ⟨value, rest, h⟩ else none
  | none => none

theorem taken?_of_lt (h : rest.length < ts.length) (value : α) :
    taken? ts (some (value, rest)) = some ⟨value, rest, h⟩ :=
  dif_pos h

end Taken

end Tablewright.Text
