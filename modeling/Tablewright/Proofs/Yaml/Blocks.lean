import Tablewright.Proofs.Yaml.Leaf

/-! One step of each reader of blocks, for texts without anchors, tags, aliases and announced keys.
A step hands the fuel that is left to the readers it calls. -/

namespace Tablewright.Yaml.Reads

open Reading

variable {fuel least : Nat} {sameColumn : Bool} {c c' c'' : Cursor} {node : Node} {t : Lines}

theorem blockLeaf_none (h : Reads (leaf fuel false least) c node c') :
    Reads (blockLeaf (fuel + 1) least .none) c node c' := by
  rw [blockLeaf]
  exact cursor.bind h

/-- A leaf with nothing after it on its line. -/
theorem blockContent_leaf (hstart : startsLeaf c.rest = true)
    (h : Reads (leaf fuel false least) c node c') (hleaves : c'.Leaves t) (ht : Token t.text) :
    Reads (blockContent (fuel + 2) least c .none) c node c' := by
  obtain ⟨_, _, hliteral, hfolded⟩ := isBefore_of_startsLeaf hstart
  rw [blockContent]
  refine cursor.bind ?_
  rw [isMark_of_startsLeaf hstart rfl, isMark_of_startsLeaf hstart rfl, hliteral, hfolded]
  simp only [Bool.false_eq_true, reduceIte]
  obtain ⟨hblanks, hcolon⟩ := hleaves.no_colon ht
  refine (blockLeaf_none h).bind (bindAnchor_none.bind ((keyColon_none hblanks hcolon).bind ?_))
  exact pure

/-- A record from its first key on. -/
theorem blockContent_record {key : List Char} {rest : List Char} {value : Node}
    {entries : List (Node × Node)} (hkey : ∀ c ∈ key, isWordChar c = true)
    (hne : key ≠ []) (hlength : key.length ≤ maxKeyWidth) (hfresh : c.isFresh = true)
    (hrest : c.rest = key ++ ':' :: rest) (hgap : atGap rest = true)
    (hvalue : Reads (blockValue (fuel + 3) (c.column + 1) true)
      ⟨c.line, c.column + key.length + 1, false, rest⟩ value c')
    (hentries : Reads (blockEntries (fuel + 3) c.column) c' entries c'') :
    Reads (blockContent (fuel + 4) least c .none) c
      (.mapping ((.scalar .plain (.ofList key), value) :: entries)) c'' := by
  have hstart : startsLeaf c.rest = true := by
    rw [hrest]
    exact (starts_word hkey hne _).1
  obtain ⟨_, _, hliteral, hfolded⟩ := isBefore_of_startsLeaf hstart
  rw [blockContent]
  refine cursor.bind ?_
  rw [isMark_of_startsLeaf hstart rfl, isMark_of_startsLeaf hstart rfl, hliteral, hfolded]
  simp only [Bool.false_eq_true, reduceIte]
  refine (blockLeaf_none (leaf_key hkey hne hrest hgap)).bind (bindAnchor_none.bind ?_)
  refine (keyColon_key rfl hgap (by simp [endsKey, hlength])).bind ?_
  rw [if_pos rfl, if_pos hfresh]
  exact hvalue.bind (hentries.bind pure)

/-- A list from its first dash on. What follows it stands further out. -/
theorem blockContent_list {rest : List Char} {items : List Node} (hfresh : c.isFresh = true)
    (hrest : c.rest = '-' :: ' ' :: rest) (hitems : Reads (blockItems fuel c.column) c items c')
    (hnext : c'.column < c.column ∨ c'.isEnd = true) :
    Reads (blockContent (fuel + 1) least c .none) c (.sequence items) c' := by
  have hmark : c.isMark '-' = true := by rw [Cursor.isMark, hrest]; rfl
  rw [blockContent]
  refine cursor.bind ?_
  rw [if_pos hmark, if_pos hfresh]
  refine hitems.bind (cursor.bind ?_)
  rw [if_pos (by simpa [or_comm] using hnext)]
  exact bindAnchor_none

theorem blockNode_of_content (hanchor : c.isBefore ['&'] = false) (htag : c.isBefore ['!'] = false)
    (h : Reads (blockContent fuel least c .none) c node c') :
    Reads (blockNode (fuel + 1) least sameColumn) c node c' := by
  rw [blockNode]
  refine cursor.bind ((properties_none false hanchor htag).bind (cursor.bind ?_))
  rw [if_pos (show Properties.none.isNone = true from rfl)]
  exact h

/-- A value that is as far in as it must be. -/
theorem blockValue_of_node (hskip : c.skip false = c') (hend : c'.isEnd = false)
    (hcolumn : least ≤ c'.column) (h : Reads (blockNode fuel least sameColumn) c' node c'') :
    Reads (blockValue (fuel + 1) least sameColumn) c node c'' := by
  rw [blockValue]
  refine skip_cursor hskip ?_
  rw [if_neg (by simp [hend]), if_pos hcolumn]
  exact h

/-- A leaf after a blank, which ends its line. -/
theorem blockValue_leaf {text : List Char} (hrest : c.rest = ' ' :: text)
    (hstart : startsLeaf text = true) (hcolumn : least ≤ c.column + 1)
    (h : Reads (leaf fuel false least) ⟨c.line, c.column + 1, c.isFresh, text⟩ node c')
    (hleaves : c'.Leaves t) (ht : Token t.text) :
    Reads (blockValue (fuel + 4) least sameColumn) c node c' := by
  have hbefore := isBefore_of_startsLeaf (c := ⟨c.line, c.column + 1, c.isFresh, text⟩) hstart
  cases text with
  | nil => cases hstart
  | cons d text =>
    have hsolid : isSolid d = true ∧ d ≠ '#' := by
      rw [startsLeaf, Bool.and_eq_true, Bool.and_eq_true] at hstart
      refine ⟨hstart.1.1, ?_⟩
      rintro rfl
      exact absurd hstart.2 (by decide)
    have hskip : c.skip false = ⟨c.line, c.column + 1, c.isFresh, d :: text⟩ := by
      have hspace : ' ' :: d :: text = Written.spaces 1 ++ d :: text := rfl
      rw [Cursor.skip, hrest, hspace, Cursor.skipFrom_spaces,
        Cursor.skipFrom_solid hsolid.1 hsolid.2]
    refine blockValue_of_node hskip (by simp [Cursor.isEnd]) hcolumn ?_
    exact blockNode_of_content hbefore.1 hbefore.2.1 (blockContent_leaf hstart h hleaves ht)

/-- The list of a field, with its dashes below the key. -/
theorem blockValue_list {rest : List Char} {items : List Node} (hskip : c.skip false = c')
    (hend : c'.isEnd = false) (hrest : c'.rest = '-' :: ' ' :: rest)
    (h : Reads (blockItems fuel c'.column) c' items c'') :
    Reads (blockValue (fuel + 1) (c'.column + 1) true) c (.sequence items) c'' := by
  have hmark : c'.isMark '-' = true := by rw [Cursor.isMark, hrest]; rfl
  have hblock : c'.isBefore ['|', '>'] = false := by rw [Cursor.isBefore, hrest]; rfl
  rw [blockValue]
  refine skip_cursor hskip ?_
  rw [if_neg (by simp [hend]), if_neg (by omega), if_neg (by simp), if_neg (by simp [hblock]),
    if_pos (by simp [hmark])]
  exact h.bind pure

theorem blockItems_cons {column : Nat} {rest : List Char} {items : List Node} {next : Cursor}
    (hskip : c.skip false = next) (hend : next.isEnd = false) (hcolumn : next.column = column)
    (hrest : next.rest = '-' :: ' ' :: rest)
    (hitem : Reads (blockValue fuel (column + 1) false) ⟨next.line, column + 1, true, ' ' :: rest⟩
      node c')
    (hitems : Reads (blockItems fuel column) c' items c'') :
    Reads (blockItems (fuel + 1) column) c (node :: items) c'' := by
  have hmark : next.isMark '-' = true := by rw [Cursor.isMark, hrest]; rfl
  have hpass : { next.advance 1 with isFresh := true } =
      (⟨next.line, column + 1, true, ' ' :: rest⟩ : Cursor) := by
    simp [Cursor.advance, hrest, hcolumn]
  rw [blockItems]
  refine skip_cursor hskip ?_
  rw [if_pos (by simp [hend, hcolumn, hmark])]
  refine (pass 1 true).bind ?_
  rw [hpass]
  exact hitem.bind (hitems.bind pure)

theorem blockItems_nil {column : Nat} (hskip : c.skip false = c')
    (h : c'.isEnd = true ∨ c'.column ≠ column ∨ c'.isMark '-' = false) :
    Reads (blockItems (fuel + 1) column) c [] c' := by
  rw [blockItems]
  refine skip_cursor hskip ?_
  rw [if_neg (by rcases h with h | h | h <;> simp [h])]
  exact pure

theorem blockEntries_cons {column : Nat} {key rest : List Char} {value : Node}
    {entries : List (Node × Node)} {next : Cursor} (hskip : c.skip false = next)
    (hend : next.isEnd = false) (hcolumn : next.column = column)
    (hkey : ∀ c ∈ key, isWordChar c = true) (hne : key ≠ []) (hlength : key.length ≤ maxKeyWidth)
    (hrest : next.rest = key ++ ':' :: rest) (hgap : atGap rest = true)
    (hvalue : Reads (blockValue (fuel + 3) (column + 1) true)
      ⟨next.line, column + key.length + 1, false, rest⟩ value c')
    (hentries : Reads (blockEntries (fuel + 3) column) c' entries c'') :
    Reads (blockEntries (fuel + 4) column) c ((.scalar .plain (.ofList key), value) :: entries)
      c'' := by
  subst hcolumn
  have hstart : startsLeaf next.rest = true := by
    rw [hrest]
    exact (starts_word hkey hne _).1
  obtain ⟨hanchor, htag, _⟩ := isBefore_of_startsLeaf hstart
  have hmark : next.isMark '?' = false := isMark_of_startsLeaf hstart rfl
  rw [blockEntries]
  refine skip_cursor hskip ?_
  rw [if_neg (by simp [hend]), if_neg (by omega), if_neg (by simp [hmark])]
  refine (properties_none false hanchor htag).bind (cursor.bind ?_)
  rw [if_neg (by simp [hend, Properties.isNone, Properties.none])]
  refine (blockLeaf_none (leaf_key hkey hne hrest hgap)).bind (bindAnchor_none.bind ?_)
  refine (keyColon_key rfl hgap (by simp [endsKey, hlength])).bind ?_
  rw [if_pos rfl]
  exact hvalue.bind (hentries.bind pure)

theorem blockEntries_nil {column : Nat} (hskip : c.skip false = c')
    (h : c'.isEnd = true ∨ c'.column < column) :
    Reads (blockEntries (fuel + 1) column) c [] c' := by
  rw [blockEntries]
  refine skip_cursor hskip ?_
  rw [if_pos (by simpa using h)]
  exact pure

end Tablewright.Yaml.Reads
