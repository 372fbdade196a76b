import Tablewright.Yaml.Grammar

/-! What readers give where they succeed, without a look at anchors: the text of a stored value has
none, and readers leave those of their surroundings as they are. -/

namespace Tablewright.Yaml

open Reading

/-- Read at the place, it gives the value and comes to another place, whatever the anchors. -/
def Reads {α : Type} (r : Reading α) (c : Cursor) (a : α) (c' : Cursor) : Prop :=
  ∀ anchors, r ⟨c, anchors⟩ = some (a, ⟨c', anchors⟩)

namespace Reads

variable {α β : Type} {c c' c'' : Cursor} {a : α} {b : β}

theorem pure : Reads (Pure.pure a : Reading α) c a c := fun _ => rfl

theorem bind {r : Reading α} {f : α → Reading β} (h : Reads r c a c') (hf : Reads (f a) c' b c'') :
    Reads (r >>= f) c b c'' := by
  intro anchors
  change (r ⟨c, anchors⟩).bind (fun s => f s.1 s.2) = some (b, ⟨c'', anchors⟩)
  rw [h anchors]
  exact hf anchors

theorem cursor : Reads Reading.cursor c c c := fun _ => rfl

theorem move : Reads (Reading.move c') c () c' := fun _ => rfl

theorem skip (inFlow : Bool) : Reads (Reading.skip inFlow) c () (c.skip inFlow) := fun _ => rfl

/-- Most readers pass over comments and breaks and look at the token that they come to. -/
theorem skip_cursor {inFlow : Bool} {read : Cursor → Reading β} (hskip : c.skip inFlow = c')
    (h : Reads (read c') c' b c'') :
    Reads (do Reading.skip inFlow; read (← Reading.cursor)) c b c'' := by
  refine (skip inFlow).bind ?_
  rw [hskip]
  exact cursor.bind h

theorem pass (n : Nat) (isFresh : Bool) :
    Reads (Reading.pass n isFresh) c () { c.advance n with isFresh } := fun _ => rfl

theorem scalar {style : Style} {read : Cursor → Option (List Char × Cursor)} {text : List Char}
    (h : read c = some (text, c')) :
    Reads (Reading.scalar style read) c (.scalar style (.ofList text)) c' := by
  intro anchors
  rw [Reading.scalar, h]
  rfl

theorem bindAnchor_none {node : Node} : Reads (Reading.bindAnchor none node) c node c :=
  fun _ => rfl

theorem property_none (inFlow : Bool) (hanchor : c.isBefore ['&'] = false)
    (htag : c.isBefore ['!'] = false) : Reads (property inFlow .none) c .none c := by
  refine cursor.bind ?_
  rw [if_neg (by simp [hanchor]), if_neg (by simp [htag])]
  exact pure

theorem properties_none (inFlow : Bool) (hanchor : c.isBefore ['&'] = false)
    (htag : c.isBefore ['!'] = false) : Reads (properties inFlow) c .none c := by
  refine cursor.bind ((property_none inFlow hanchor htag).bind ?_)
  rw [if_pos (show Properties.none.isNone = true from rfl)]
  exact pure

/-- What began at `start` is a key. -/
theorem keyColon_key {start : Cursor} {rest : List Char} (hrest : c.rest = ':' :: rest)
    (hgap : atGap rest = true) (hkey : endsKey start c = true) :
    Reads (keyColon start) c true ⟨c.line, c.column + 1, false, rest⟩ := by
  have hblanks : c.rest.takeWhile isBlank = [] := by rw [hrest]; rfl
  have hmark : (c.advance 0).isMark ':' = true := by
    simp [Cursor.advance, Cursor.isMark, hrest, hgap]
  have hends : endsKey start (c.advance 0) = true := hkey
  refine cursor.bind ?_
  simp only [hblanks, List.length_nil, hmark, hends, Bool.and_self, reduceIte]
  have hnext : (c.advance 0).advance 1 = ⟨c.line, c.column + 1, false, rest⟩ := by
    simp [Cursor.advance, hrest]
  rw [hnext]
  exact move.bind pure

/-- What began at `start` is no key. -/
theorem keyColon_none {start : Cursor} (hblanks : c.rest.takeWhile isBlank = [])
    (hmark : c.isMark ':' = false) : Reads (keyColon start) c false c := by
  have hadvance : (c.advance 0).isMark ':' = false := by
    simpa [Cursor.advance, Cursor.isMark] using hmark
  refine cursor.bind ?_
  simp only [hblanks, List.length_nil, hadvance, Bool.false_and, Bool.false_eq_true, reduceIte]
  exact pure

end Reads

end Tablewright.Yaml
