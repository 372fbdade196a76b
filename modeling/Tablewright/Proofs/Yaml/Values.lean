import Tablewright.Proofs.Yaml.Blocks

/-! A printed value is read as its node. The induction is on the value: every reader comes to the
lines after what it has read, and a list or a record goes on from there. -/

namespace Tablewright

open Yaml

/-! ### Nodes of values -/

namespace Value

mutual

/-- The node that the text of a value stands for. -/
def node : Value → Node
  | .null => .scalar .plain "null"
  | .flag b => .scalar .plain (if b then "true" else "false")
  | .number n => .scalar .plain (toString n)
  | .text s => .scalar (Written.style s) s
  | .list vs => .sequence (nodes vs)
  | .record fs => .mapping (entries fs)

def nodes : List Value → List Node
  | [] => []
  | v :: vs => v.node :: nodes vs

def entries : List (String × Value) → List (Node × Node)
  | [] => []
  | (key, v) :: fs => (.scalar .plain key, v.node) :: entries fs

end

theorem nodes_eq_map (vs : List Value) : nodes vs = vs.map node := by
  induction vs with
  | nil => rfl
  | cons v vs ih => rw [nodes, ih, List.map_cons]

/-- The name of a field is a word that is short enough for a key. -/
structure IsKey (key : String) : Prop where
  ne_nil : key.toList ≠ []
  word : ∀ c ∈ key.toList, isWordChar c = true
  short : key.toList.length ≤ Reading.maxKeyWidth

/-- The values that can be stored: no string in them has a line feed, and no record is empty. -/
inductive Storable : Value → Prop
  | null : Storable .null
  | flag (b : Bool) : Storable (.flag b)
  | number (n : Nat) : Storable (.number n)
  | text {s : String} (h : '\n' ∉ s.toList) : Storable (.text s)
  | list {vs : List Value} (h : ∀ v ∈ vs, Storable v) : Storable (.list vs)
  | record {fs : List (String × Value)} (hne : fs ≠ []) (hkeys : ∀ f ∈ fs, IsKey f.1)
      (h : ∀ f ∈ fs, Storable f.2) : Storable (.record fs)

/-! ### Lines of collections -/

/-- The items of a list at `column`, before other lines. -/
def itemLines (column : Nat) (t : Lines) : List Value → Lines
  | [] => t
  | v :: vs => ⟨column, '-' :: (yamlItem column v ++ (itemLines column t vs).chars)⟩

/-- The fields of a record at `column`, before other lines. -/
def fieldLines (column : Nat) (t : Lines) : List (String × Value) → Lines
  | [] => t
  | (key, v) :: fs =>
    ⟨column, key.toList ++ ':' :: (yamlField column v ++ (fieldLines column t fs).chars)⟩

variable {column : Nat} {t : Lines}

theorem yamlItems_chars (vs : List Value) :
    yamlItems column (Written.spaces column) vs ++ t.chars = (itemLines column t vs).chars := by
  induction vs with
  | nil => rfl
  | cons v vs ih =>
    rw [yamlItems, itemLines, ← ih]
    simp [Lines.chars]

theorem yamlFields_chars (fs : List (String × Value)) :
    yamlFields column (Written.spaces column) fs ++ t.chars = (fieldLines column t fs).chars := by
  induction fs with
  | nil => rfl
  | cons f fs ih =>
    rw [yamlFields, fieldLines, ← ih]
    simp [Lines.chars]

/-- The first item of a list may stand on the line of what holds the list. -/
theorem yamlItems_text (column : Nat) (t : Lines) (lead : List Char) (v : Value) (vs : List Value) :
    yamlItems column lead (v :: vs) ++ t.chars = lead ++ (itemLines column t (v :: vs)).text := by
  rw [yamlItems, itemLines, ← yamlItems_chars]
  simp

theorem yamlFields_text (column : Nat) (t : Lines) (lead : List Char) (f : String × Value)
    (fs : List (String × Value)) :
    yamlFields column lead (f :: fs) ++ t.chars = lead ++ (fieldLines column t (f :: fs)).text := by
  rw [yamlFields, fieldLines, ← yamlFields_chars]
  simp

theorem yamlItem_head (column : Nat) (v : Value) : ∃ rest, yamlItem column v = ' ' :: rest := by
  cases v with
  | null => exact ⟨_, rfl⟩
  | flag b => cases b <;> exact ⟨_, rfl⟩
  | number n => exact ⟨_, rfl⟩
  | text s => exact ⟨_, rfl⟩
  | list vs => cases vs <;> exact ⟨_, rfl⟩
  | record fs => cases fs <;> exact ⟨_, rfl⟩

theorem yamlField_head (column : Nat) (v : Value) (rest : List Char) :
    atGap (yamlField column v ++ rest) = true := by
  cases v with
  | null => rfl
  | flag b => cases b <;> rfl
  | number n => rfl
  | text s => rfl
  | list vs => cases vs <;> rfl
  | record fs => cases fs <;> rfl

theorem itemLines_cons (column : Nat) (t : Lines) (v : Value) (vs : List Value) :
    ∃ rest, yamlItem column v ++ (itemLines column t vs).chars = ' ' :: rest ∧
      itemLines column t (v :: vs) = ⟨column, '-' :: ' ' :: rest⟩ := by
  obtain ⟨rest, hrest⟩ := yamlItem_head column v
  exact ⟨rest ++ (itemLines column t vs).chars, by rw [hrest]; rfl, by rw [itemLines, hrest]; rfl⟩

theorem token_itemLines (ht : Token t.text) (vs : List Value) :
    Token (itemLines column t vs).text := by
  cases vs with
  | nil => exact ht
  | cons v vs =>
    obtain ⟨rest, _, hlines⟩ := itemLines_cons column t v vs
    rw [hlines]
    exact .item rest

theorem length_itemLines_pos (column : Nat) (t : Lines) (v : Value) (vs : List Value) :
    0 < (itemLines column t (v :: vs)).text.length := by
  simp [itemLines]

theorem indent_itemLines (ht : t.indent ≤ column) (vs : List Value) :
    (itemLines column t vs).indent ≤ column := by
  cases vs with
  | nil => exact ht
  | cons v vs => exact Nat.le_refl column

/-! ### Items -/

/-- After the dash of an item in a list at `column`, the value is read up to the lines that
follow. -/
def ReadsItem (v : Value) : Prop :=
  ∀ (column : Nat) (t : Lines) (fuel : Nat) (c : Cursor), Token t.text → t.indent ≤ column →
    c.column = column + 1 → c.isFresh = true → c.rest = yamlItem column v ++ t.chars →
    5 * c.rest.length + 4 ≤ fuel →
    ∃ c', Reads (Reading.blockValue fuel (column + 1) false) c v.node c' ∧ c'.Leaves t

theorem reads_items {vs : List Value} (h : ∀ v ∈ vs, ReadsItem v) (ht : Token t.text)
    (hend : t.endsList column) (fuel : Nat) (c : Cursor) (hc : c.Leaves (itemLines column t vs))
    (hfuel : 5 * c.rest.length + 1 ≤ fuel) :
    ∃ line, Reads (Reading.blockItems fuel column) c (nodes vs) ⟨line, t.indent, true, t.text⟩ := by
  obtain ⟨fuel, rfl⟩ : ∃ n, fuel = n + 1 := ⟨fuel - 1, by omega⟩
  induction vs generalizing fuel c with
  | nil =>
    obtain ⟨line, hskip⟩ := hc.skip ht
    refine ⟨line, Reads.blockItems_nil hskip ?_⟩
    by_cases hindent : t.indent = column
    · refine .inr (.inr ?_)
      have hhead := hend.2 hindent
      cases htext : t.text with
      | nil => rfl
      | cons d rest =>
        rw [htext] at hhead
        have hd : d ≠ '-' := fun heq => hhead (by rw [heq]; rfl)
        simp [Cursor.isMark, hd]
    · exact .inr (.inl hindent)
  | cons v vs ih =>
    obtain ⟨hv, hvs⟩ := List.forall_mem_cons.mp h
    obtain ⟨rest, hrest, hlines⟩ := itemLines_cons column t v vs
    have hlength := hc.length_text
    rw [hlines] at hc hlength
    obtain ⟨line, hskip⟩ := hc.skip (.item rest)
    have hsize := congrArg List.length hrest
    simp only [List.length_append, List.length_cons] at hsize hlength
    obtain ⟨fuel, rfl⟩ : ∃ n, fuel = n + 1 := ⟨fuel - 1, by omega⟩
    obtain ⟨c', hread, hleaves⟩ := hv column (itemLines column t vs) (fuel + 1)
      ⟨line, column + 1, true, ' ' :: rest⟩ (token_itemLines ht vs) (indent_itemLines hend.1 vs) rfl
      rfl hrest.symm (by simp only [List.length_cons]; omega)
    have hnext := hleaves.length_le
    have hitem : 0 < (yamlItem column v).length := by
      obtain ⟨_, hhead⟩ := yamlItem_head column v
      simp [hhead]
    obtain ⟨line', hreads⟩ := ih hvs c' hleaves fuel (by omega)
    refine ⟨line', ?_⟩
    rw [nodes]
    exact Reads.blockItems_cons hskip (Cursor.isEnd_token (.item rest) line column true) rfl rfl
      hread hreads

/-! ### Fields -/

/-- After the colon of a field in a record at `column`, the value is read up to the lines that
follow. -/
def ReadsField (v : Value) : Prop :=
  ∀ (column : Nat) (t : Lines) (fuel : Nat) (c : Cursor), Token t.text → t.endsList column →
    column < c.column → c.rest = yamlField column v ++ t.chars → 5 * c.rest.length + 4 ≤ fuel →
    ∃ c', Reads (Reading.blockValue fuel (column + 1) true) c v.node c' ∧ c'.Leaves t

theorem IsKey.exists_cons {key : String} (h : IsKey key) :
    ∃ d ds, key.toList = d :: ds ∧ isWordChar d = true := by
  have hword := h.word
  cases hlist : key.toList with
  | nil => exact absurd hlist h.ne_nil
  | cons d ds =>
    rw [hlist] at hword
    exact ⟨d, ds, rfl, hword d List.mem_cons_self⟩

theorem token_fieldLines (ht : Token t.text) {fs : List (String × Value)}
    (hkeys : ∀ f ∈ fs, IsKey f.1) : Token (fieldLines column t fs).text := by
  cases fs with
  | nil => exact ht
  | cons f fs =>
    obtain ⟨d, ds, hkey, hd⟩ := (hkeys f List.mem_cons_self).exists_cons
    rw [fieldLines, hkey]
    exact .key hd _

theorem length_fieldLines_pos (column : Nat) (t : Lines) (f : String × Value)
    (fs : List (String × Value)) : 0 < (fieldLines column t (f :: fs)).text.length := by
  simp only [fieldLines, List.length_append, List.length_cons]
  omega

theorem endsList_fieldLines (ht : t.endsRecord column) {fs : List (String × Value)}
    (hkeys : ∀ f ∈ fs, IsKey f.1) : (fieldLines column t fs).endsList column := by
  cases fs with
  | nil => exact ht.endsList
  | cons f fs =>
    obtain ⟨d, ds, hkey, hd⟩ := (hkeys f List.mem_cons_self).exists_cons
    have hdash : d ≠ '-' := by rintro rfl; cases hd
    refine ⟨Nat.le_refl column, fun _ => ?_⟩
    rw [fieldLines, hkey]
    simpa using hdash

/-- A field and those after it, given how those after it are read. -/
theorem reads_field {f : String × Value} {fs : List (String × Value)} (hkey : IsKey f.1)
    (hkeys : ∀ g ∈ fs, IsKey g.1) (hf : ReadsField f.2) (ht : Token t.text)
    (hend : t.endsRecord column) (line fuel : Nat)
    (hfuel : 5 * (fieldLines column t (f :: fs)).text.length ≤ fuel + 2)
    (hfs : ∀ c : Cursor, c.Leaves (fieldLines column t fs) → 5 * c.rest.length + 2 ≤ fuel →
      ∃ line', Reads (Reading.blockEntries fuel column) c (entries fs)
        ⟨line', t.indent, true, t.text⟩) :
    ∃ c' line', Reads (Reading.blockValue fuel (column + 1) true)
        ⟨line, column + f.1.toList.length + 1, false,
          yamlField column f.2 ++ (fieldLines column t fs).chars⟩ f.2.node c' ∧
      Reads (Reading.blockEntries fuel column) c' (entries fs) ⟨line', t.indent, true, t.text⟩ := by
  have hpos : 0 < f.1.toList.length := List.length_pos_iff.mpr hkey.ne_nil
  rw [fieldLines] at hfuel
  simp only [List.length_append, List.length_cons] at hfuel
  obtain ⟨c', hread, hleaves⟩ := hf column (fieldLines column t fs) fuel
    ⟨line, column + f.1.toList.length + 1, false,
      yamlField column f.2 ++ (fieldLines column t fs).chars⟩
    (token_fieldLines ht hkeys) (endsList_fieldLines hend hkeys) (by simp only; omega) rfl
    (by simp only [List.length_append]; omega)
  have hnext := hleaves.length_le
  obtain ⟨line', hreads⟩ := hfs c' hleaves (by omega)
  exact ⟨c', line', hread, hreads⟩

theorem entries_cons (f : String × Value) (fs : List (String × Value)) :
    entries (f :: fs) = (.scalar .plain (.ofList f.1.toList), f.2.node) :: entries fs := by
  rw [String.ofList_toList]
  rfl

theorem reads_entries {fs : List (String × Value)} (hkeys : ∀ f ∈ fs, IsKey f.1)
    (h : ∀ f ∈ fs, ReadsField f.2) (ht : Token t.text) (hend : t.endsRecord column) (fuel : Nat)
    (c : Cursor) (hc : c.Leaves (fieldLines column t fs)) (hfuel : 5 * c.rest.length + 2 ≤ fuel) :
    ∃ line, Reads (Reading.blockEntries fuel column) c (entries fs)
      ⟨line, t.indent, true, t.text⟩ := by
  induction fs generalizing fuel c with
  | nil =>
    obtain ⟨fuel, rfl⟩ : ∃ n, fuel = n + 1 := ⟨fuel - 1, by omega⟩
    obtain ⟨line, hskip⟩ := hc.skip ht
    exact ⟨line, Reads.blockEntries_nil hskip (Cursor.outside_of_endsRecord hend ht line).symm⟩
  | cons f fs ih =>
    obtain ⟨hkey, hkeys'⟩ := List.forall_mem_cons.mp hkeys
    obtain ⟨hf, hfs⟩ := List.forall_mem_cons.mp h
    have htoken : Token (fieldLines column t (f :: fs)).text := token_fieldLines ht hkeys
    obtain ⟨line, hskip⟩ := hc.skip htoken
    have hlength := hc.length_text
    have hpos := length_fieldLines_pos column t f fs
    have hstart := Cursor.isEnd_token_pos htoken hpos line column true
    obtain ⟨fuel, rfl⟩ : ∃ n, fuel = n + 4 := ⟨fuel - 4, by omega⟩
    obtain ⟨c', line', hvalue, hentries⟩ := reads_field hkey hkeys' hf ht hend line (fuel + 3)
      (by omega) (ih hkeys' hfs (fuel + 3))
    refine ⟨line', ?_⟩
    rw [entries_cons]
    exact Reads.blockEntries_cons hskip hstart rfl hkey.word
      hkey.ne_nil hkey.short rfl (yamlField_head column f.2 _) hvalue hentries

/-! ### Values -/

/-- A record from its first key on. -/
theorem reads_record {f : String × Value} {fs : List (String × Value)}
    (hkeys : ∀ g ∈ f :: fs, IsKey g.1) (h : ∀ g ∈ f :: fs, ReadsField g.2) (ht : Token t.text)
    (hend : t.endsRecord column) (least line fuel : Nat) (sameColumn : Bool)
    (hfuel : 5 * (fieldLines column t (f :: fs)).text.length + 3 ≤ fuel) :
    ∃ line', Reads (Reading.blockNode fuel least sameColumn)
      ⟨line, column, true, (fieldLines column t (f :: fs)).text⟩ (.mapping (entries (f :: fs)))
      ⟨line', t.indent, true, t.text⟩ := by
  obtain ⟨hkey, hkeys'⟩ := List.forall_mem_cons.mp hkeys
  obtain ⟨hf, hfs⟩ := List.forall_mem_cons.mp h
  have hpos := length_fieldLines_pos column t f fs
  obtain ⟨fuel, rfl⟩ : ∃ n, fuel = n + 5 := ⟨fuel - 5, by omega⟩
  obtain ⟨c', line', hvalue, hentries⟩ := reads_field hkey hkeys' hf ht hend line (fuel + 3)
    (by omega) (reads_entries hkeys' hfs ht hend (fuel + 3))
  have hstart := (Reads.starts_word hkey.word hkey.ne_nil
    (':' :: (yamlField column f.2 ++ (fieldLines column t fs).chars))).1
  have hbefore := Reads.isBefore_of_startsLeaf (c := ⟨line, column, true, _⟩) hstart
  refine ⟨line', ?_⟩
  rw [entries_cons]
  refine Reads.blockNode_of_content hbefore.1 hbefore.2.1 ?_
  exact Reads.blockContent_record hkey.word hkey.ne_nil hkey.short rfl rfl
    (yamlField_head column f.2 _) hvalue hentries

/-- A list from its first dash on. -/
theorem reads_list {v : Value} {vs : List Value} (h : ∀ w ∈ v :: vs, ReadsItem w)
    (ht : Token t.text) (hend : t.endsRecord column) (least line fuel : Nat) (sameColumn : Bool)
    (hfuel : 5 * (itemLines column t (v :: vs)).text.length + 3 ≤ fuel) :
    ∃ line', Reads (Reading.blockNode fuel least sameColumn)
      ⟨line, column, true, (itemLines column t (v :: vs)).text⟩ (.sequence (nodes (v :: vs)))
      ⟨line', t.indent, true, t.text⟩ := by
  obtain ⟨rest, _, hlines⟩ := itemLines_cons column t v vs
  obtain ⟨fuel, rfl⟩ : ∃ n, fuel = n + 2 := ⟨fuel - 2, by omega⟩
  obtain ⟨line', hitems⟩ := reads_items h ht hend.endsList fuel
    ⟨line, column, true, (itemLines column t (v :: vs)).text⟩
    (.inl ⟨line, by rw [hlines]⟩) (by simp only; omega)
  refine ⟨line', ?_⟩
  rw [hlines] at hitems ⊢
  refine Reads.blockNode_of_content rfl rfl ?_
  exact Reads.blockContent_list rfl rfl hitems (Cursor.outside_of_endsRecord hend ht line')

/-- The text is a leaf that ends its line, and it is read as the node. -/
def ReadsLeaf (text : List Char) (node : Node) : Prop :=
  ∀ (t : Lines) (least fuel : Nat) (c : Cursor), Token t.text → t.indent < least →
    least ≤ c.column → c.rest = text ++ t.chars → c.rest.length ≤ fuel →
    Reads.startsLeaf c.rest = true ∧
      ∃ c', Reads (Reading.leaf (fuel + 1) false least) c node c' ∧ c'.Leaves t

theorem ReadsLeaf.blockValue {text : List Char} {node : Node} (h : ReadsLeaf text node)
    (ht : Token t.text) {least fuel : Nat} (sameColumn : Bool) {c : Cursor}
    (hleast : t.indent < least) (hcolumn : least ≤ c.column + 1)
    (hrest : c.rest = ' ' :: text ++ t.chars) (hfuel : 5 * c.rest.length + 4 ≤ fuel) :
    ∃ c', Reads (Reading.blockValue fuel least sameColumn) c node c' ∧ c'.Leaves t := by
  have hlength := congrArg List.length hrest
  simp only [List.length_append, List.length_cons] at hlength
  obtain ⟨fuel, rfl⟩ : ∃ n, fuel = n + 5 := ⟨fuel - 5, by omega⟩
  obtain ⟨hstart, c', hread, hleaves⟩ := h t least fuel
    ⟨c.line, c.column + 1, c.isFresh, text ++ t.chars⟩ ht hleast hcolumn rfl
    (by simp only [List.length_append]; omega)
  exact ⟨c', Reads.blockValue_leaf hrest hstart hcolumn hread hleaves ht, hleaves⟩

theorem reads_leaf {v : Value} {text : Nat → List Char}
    (hitem : ∀ column, yamlItem column v = ' ' :: text column)
    (hfield : ∀ column, yamlField column v = ' ' :: text column)
    (h : ∀ column, ReadsLeaf (text column) v.node) : ReadsItem v ∧ ReadsField v := by
  constructor
  · intro column t fuel c ht hindent hcolumn _ hrest hfuel
    rw [hitem] at hrest
    exact (h column).blockValue ht false (by omega) (by omega) hrest hfuel
  · intro column t fuel c ht hend hcolumn hrest hfuel
    rw [hfield] at hrest
    exact (h column).blockValue ht true (Nat.lt_succ_of_le hend.1) (by omega) hrest hfuel

theorem readsLeaf_word (word : List Char) (hword : ∀ c ∈ word, isWordChar c = true)
    (hne : word ≠ []) : ReadsLeaf (word ++ ['\n']) (.scalar .plain (.ofList word)) := by
  intro t least fuel c ht hleast hcolumn hrest hfuel
  rw [List.append_assoc] at hrest
  refine ⟨?_, Reads.leaf_unquoted (.of_word hword) hne ht hleast hcolumn hrest hfuel⟩
  rw [hrest]
  exact (Reads.starts_word hword hne _).1

theorem readsLeaf_nil : ReadsLeaf "[]\n".toList (.sequence []) := by
  intro t least fuel c ht hleast hcolumn hrest hfuel
  have hcur : c.rest = '[' :: ']' :: '\n' :: t.chars := hrest
  obtain ⟨fuel, rfl⟩ : ∃ n, fuel = n + 1 := by
    rw [hcur, List.length_cons] at hfuel
    exact ⟨fuel - 1, by omega⟩
  refine ⟨by rw [hcur]; rfl, _, Reads.leaf_nil hcur, .inr rfl⟩

theorem isWordChar_toString (n : Nat) : ∀ c ∈ (toString n).toList, isWordChar c = true := by
  intro c hc
  rw [Nat.toString_eq_repr, Nat.toList_repr] at hc
  have hdigit := Nat.isDigit_of_mem_toDigits (by decide) (by decide) hc
  simp [isWordChar, Char.isAlphanum, hdigit]

/-- A collection in an item begins on the line of the dash, two columns further in. -/
theorem readsItem_of_lines {v : Value} (lines : Nat → Lines → Lines)
    (htext : ∀ column t, yamlItem column v ++ t.chars = ' ' :: (lines (column + 2) t).text)
    (htoken : ∀ column t, Token t.text → Token (lines column t).text)
    (hpos : ∀ column t, 0 < (lines column t).text.length)
    (hread : ∀ column t least line fuel, Token t.text → t.endsRecord column →
      5 * (lines column t).text.length + 3 ≤ fuel →
      ∃ line', Reads (Reading.blockNode fuel least false)
        ⟨line, column, true, (lines column t).text⟩ v.node ⟨line', t.indent, true, t.text⟩) :
    ReadsItem v := by
  intro column t fuel c ht hindent hcolumn hfresh hrest hfuel
  rw [htext] at hrest
  have htokens := htoken (column + 2) t ht
  have hskip := Cursor.skip_space hrest htokens
  rw [hcolumn, hfresh] at hskip
  rw [hrest, List.length_cons] at hfuel
  obtain ⟨fuel, rfl⟩ : ∃ n, fuel = n + 1 := ⟨fuel - 1, by omega⟩
  obtain ⟨line, hnode⟩ := hread (column + 2) t (column + 1) c.line fuel ht
    (Lines.endsRecord_of_le hindent) (by omega)
  have hend := Cursor.isEnd_token_pos htokens (hpos (column + 2) t) c.line (column + 2) true
  exact ⟨_, Reads.blockValue_of_node hskip hend (by simp only; omega) hnode, .inl ⟨line, rfl⟩⟩

/-- The items of a list in a field begin on a line below, with their dashes below the key. -/
theorem reads_nonempty_list {v : Value} {vs : List Value} (h : ∀ w ∈ v :: vs, ReadsItem w) :
    ReadsItem (.list (v :: vs)) ∧ ReadsField (.list (v :: vs)) := by
  constructor
  · exact readsItem_of_lines (fun column t => itemLines column t (v :: vs))
      (fun column t => yamlItems_text (column + 2) t [' '] v vs)
      (fun _ _ ht => token_itemLines ht (v :: vs))
      (fun column t => length_itemLines_pos column t v vs)
      (fun _ _ least line fuel ht hend => reads_list h ht hend least line fuel false)
  · intro column t fuel c ht hend hcolumn hrest hfuel
    rw [yamlField, List.cons_append, yamlItems_chars] at hrest
    obtain ⟨rest, _, hlines⟩ := itemLines_cons column t v vs
    have hleaves : c.Leaves (itemLines column t (v :: vs)) := .inr hrest
    rw [hlines] at hrest hleaves
    obtain ⟨line, hskip⟩ := hleaves.skip (.item rest)
    rw [hrest, List.length_cons, Lines.length_chars] at hfuel
    obtain ⟨fuel, rfl⟩ : ∃ n, fuel = n + 1 := ⟨fuel - 1, by omega⟩
    obtain ⟨line', hread⟩ := reads_items h ht hend fuel ⟨line, column, true, '-' :: ' ' :: rest⟩
      (.inl ⟨line, by rw [hlines]⟩) (by simp only at hfuel ⊢; omega)
    have hstart := Cursor.isEnd_token (.item rest) line column true
    exact ⟨_, Reads.blockValue_list hskip hstart rfl hread, .inl ⟨line', rfl⟩⟩

/-- The fields of a record in a field stand on the lines below, two columns further in. -/
theorem reads_nonempty_record {f : String × Value} {fs : List (String × Value)}
    (hkeys : ∀ g ∈ f :: fs, IsKey g.1) (h : ∀ g ∈ f :: fs, ReadsField g.2) :
    ReadsItem (.record (f :: fs)) ∧ ReadsField (.record (f :: fs)) := by
  constructor
  · exact readsItem_of_lines (fun column t => fieldLines column t (f :: fs))
      (fun column t => yamlFields_text (column + 2) t [' '] f fs)
      (fun _ _ ht => token_fieldLines ht hkeys)
      (fun column t => length_fieldLines_pos column t f fs)
      (fun _ _ least line fuel ht hend => reads_record hkeys h ht hend least line fuel false)
  · intro column t fuel c ht hend hcolumn hrest hfuel
    rw [yamlField, List.cons_append, yamlFields_chars] at hrest
    have hleaves : c.Leaves (fieldLines (column + 2) t (f :: fs)) := .inr hrest
    have htoken : Token (fieldLines (column + 2) t (f :: fs)).text := token_fieldLines ht hkeys
    obtain ⟨line, hskip⟩ := hleaves.skip htoken
    rw [hrest, List.length_cons, Lines.length_chars] at hfuel
    obtain ⟨fuel, rfl⟩ : ∃ n, fuel = n + 1 := ⟨fuel - 1, by omega⟩
    obtain ⟨line', hread⟩ := reads_record hkeys h ht (Lines.endsRecord_of_le hend.1) (column + 1)
      line fuel true (by omega)
    have hstart := Cursor.isEnd_token_pos htoken (length_fieldLines_pos (column + 2) t f fs) line
      (column + 2) true
    exact ⟨_, Reads.blockValue_of_node hskip hstart (by simp only [fieldLines]; omega) hread,
      .inl ⟨line', rfl⟩⟩

/-- What can be stored is read as its node, as an item and as a field. -/
theorem Storable.reads {v : Value} (h : Storable v) : ReadsItem v ∧ ReadsField v := by
  induction h with
  | null =>
    exact reads_leaf (fun _ => rfl) (fun _ => rfl) fun _ =>
      readsLeaf_word "null".toList (List.all_eq_true.mp rfl) (by decide)
  | flag b =>
    cases b with
    | true =>
      exact reads_leaf (fun _ => rfl) (fun _ => rfl) fun _ =>
        readsLeaf_word "true".toList (List.all_eq_true.mp rfl) (by decide)
    | false =>
      exact reads_leaf (fun _ => rfl) (fun _ => rfl) fun _ =>
        readsLeaf_word "false".toList (List.all_eq_true.mp rfl) (by decide)
  | number n =>
    refine reads_leaf (fun _ => rfl) (fun _ => rfl) fun _ => ?_
    have hread := readsLeaf_word (toString n).toList (isWordChar_toString n) (by
      rw [Nat.toString_eq_repr, Nat.toList_repr]
      exact Nat.toDigits_ne_nil)
    rwa [String.ofList_toList] at hread
  | text h =>
    refine reads_leaf (fun _ => rfl) (fun _ => rfl) fun column => ?_
    intro t least fuel c ht hleast hcolumn hrest hfuel
    exact Reads.leaf_text h ht hleast hcolumn hrest hfuel
  | @list vs h ih =>
    cases vs with
    | nil => exact reads_leaf (fun _ => rfl) (fun _ => rfl) fun _ => readsLeaf_nil
    | cons v vs => exact reads_nonempty_list fun w hw => (ih w hw).1
  | @record fs hne hkeys h ih =>
    cases fs with
    | nil => exact absurd rfl hne
    | cons f fs => exact reads_nonempty_record hkeys fun g hg => (ih g hg).2

end Value

end Tablewright
