import Tablewright.Proofs.Yaml.Printed

/-! The text of a list of values is one document, and its node is that of the list. -/

namespace Tablewright.Value

open Yaml Reading

theorem unifyBreaks_eq_self {cs : List Char} (h : ∀ c ∈ cs, isPrintable c = true) :
    unifyBreaks cs = cs := by
  induction cs with
  | nil => rfl
  | cons c cs ih =>
    obtain ⟨hc, hcs⟩ := List.forall_mem_cons.mp h
    have hreturn : c ≠ '\r' := by rintro rfl; cases hc
    have hnext : c ≠ '\u0085' := by rintro rfl; cases hc
    rw [unifyBreaks]
    · simp [hreturn, hnext, ih hcs]
    · intro _ heq
      exact absurd heq hreturn

/-- No byte order mark begins a printable text. -/
theorem ofText_eq {cs : List Char} (h : ∀ c ∈ cs, isPrintable c = true) :
    Cursor.ofText cs = ⟨0, 0, true, cs⟩ := by
  unfold Cursor.ofText
  split
  · exact absurd (h '\ufeff' List.mem_cons_self) (by decide)
  · rfl

theorem ofText?_ofList {cs : List Char} (h : ∀ c ∈ cs, isPrintable c = true) {node : Node}
    {c : Cursor}
    (hread : Reads (document (5 * (cs.length + 2))) ⟨0, 0, true, cs⟩ (some node) c) :
    Node.ofText? (.ofList cs) = some node := by
  have hall : cs.all isAllowed = true := by
    rw [List.all_eq_true]
    exact fun c hc => isAllowed_of_isPrintable (h c hc)
  have hrun : (document (5 * (cs.length + 2))).run ⟨.ofText cs, []⟩ =
      some (some node, ⟨c, []⟩) := by
    rw [ofText_eq h]
    exact hread []
  simp only [Node.ofText?, String.toList_ofList, hall, unifyBreaks_eq_self h, hrun]
  rfl

theorem version_none {c : Cursor} (h : c.isBefore ['%'] = false) : Reads version c false c := by
  refine Reads.cursor.bind ?_
  rw [if_neg (by simp [h])]
  exact Reads.pure

/-- Nothing stands after the document. -/
def noLines : Lines := ⟨0, []⟩

theorem endsRecord_noLines : noLines.endsRecord 0 := ⟨Nat.le_refl 0, fun _ => rfl⟩

theorem endMarks_nil (fuel : Nat) {c : Cursor} (h : c.Leaves noLines) :
    ∃ c', Reads (endMarks (fuel + 1)) c () c' := by
  obtain ⟨line, hskip⟩ := h.skip .done
  refine ⟨⟨line, 0, true, []⟩, ?_⟩
  rw [endMarks]
  exact Reads.skip_cursor hskip Reads.pure

/-- A document without directives and marks, whose node begins where the text does. -/
theorem reads_document {c c' : Cursor} {node : Node} {fuel : Nat} (hskip : c.skip false = c)
    (hend : c.isEnd = false) (hdirective : c.isBefore ['%'] = false)
    (h : Reads (blockNode (fuel + 1) 0 false) c node c') (hleaves : c'.Leaves noLines) :
    ∃ c'', Reads (document (fuel + 2)) c (some node) c'' := by
  obtain ⟨c'', hmarks⟩ := endMarks_nil (fuel + 1) hleaves
  refine ⟨c'', ?_⟩
  have hvalue := Reads.blockValue_of_node hskip hend (Nat.zero_le _) h
  rw [document]
  refine (Reads.skip false).bind ?_
  rw [hskip]
  refine (version_none hdirective).bind (Reads.cursor.bind ?_)
  have hrest : c.rest.isEmpty = false := by
    rw [Cursor.isEnd, Bool.or_eq_false_iff] at hend
    exact hend.1
  rw [if_neg (by simp [hrest])]
  simp only [hend, Bool.false_and, Bool.false_eq_true, reduceIte, Bool.or_self]
  exact hvalue.bind (hmarks.bind Reads.pure)

theorem ofText?_nil : Node.ofText? (yamlList []) = some (.sequence []) := by
  have hleaf : Reads (leaf 21 false 0) ⟨0, 0, true, "[]\n".toList⟩ (.sequence [])
      ⟨0, 2, false, ['\n']⟩ := Reads.leaf_nil rfl
  have hleaves : Cursor.Leaves ⟨0, 2, false, ['\n']⟩ noLines := .inr rfl
  have hnode : Reads (blockNode 24 0 false) ⟨0, 0, true, "[]\n".toList⟩ (.sequence [])
      ⟨0, 2, false, ['\n']⟩ :=
    Reads.blockNode_of_content rfl rfl (Reads.blockContent_leaf rfl hleaf hleaves .done)
  obtain ⟨c, hread⟩ := reads_document rfl rfl rfl hnode hleaves
  have htext : yamlList [] = .ofList "[]\n".toList := by rw [String.ofList_toList]; rfl
  rw [htext]
  exact ofText?_ofList (List.all_eq_true.mp rfl) hread

theorem ofText?_cons {v : Value} {vs : List Value} (h : ∀ w ∈ v :: vs, Storable w) :
    Node.ofText? (yamlList (v :: vs)) = some (.sequence (nodes (v :: vs))) := by
  obtain ⟨rest, _, hlines⟩ := itemLines_cons 0 noLines v vs
  have htext : yamlItems 0 [] (v :: vs) = '-' :: ' ' :: rest := by
    have hitems := yamlItems_text 0 noLines [] v vs
    rw [hlines] at hitems
    rw [← List.append_nil (yamlItems 0 [] (v :: vs))]
    exact hitems
  have hprint : ∀ c ∈ yamlItems 0 [] (v :: vs), isPrintable c = true :=
    isPrintable_yamlItems (fun w hw => (h w hw).printable) 0 (by simp)
  have hskip : Cursor.skip false ⟨0, 0, true, '-' :: ' ' :: rest⟩ =
      ⟨0, 0, true, '-' :: ' ' :: rest⟩ := Cursor.skipFrom_token (.item rest) 0 0 true
  have hend := Cursor.isEnd_token (.item rest) 0 0 true
  obtain ⟨line, hnode⟩ := reads_list (fun w hw => (h w hw).reads.1) .done endsRecord_noLines 0 0
    (5 * ('-' :: ' ' :: rest).length + 9) false (by simp only [hlines]; omega)
  rw [hlines] at hnode
  obtain ⟨c, hread⟩ := reads_document hskip hend rfl hnode (.inl ⟨line, rfl⟩)
  have hlist : yamlList (v :: vs) = .ofList (yamlItems 0 [] (v :: vs)) := rfl
  rw [hlist, htext]
  exact ofText?_ofList (htext ▸ hprint) hread

/-- A printed list of values that can be stored is read as its node. -/
theorem ofText?_yamlList {vs : List Value} (h : ∀ v ∈ vs, Storable v) :
    Node.ofText? (yamlList vs) = some (.sequence (nodes vs)) := by
  cases vs with
  | nil => exact ofText?_nil
  | cons v vs => exact ofText?_cons h

end Tablewright.Value
