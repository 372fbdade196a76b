import Tablewright.Proofs.Code.Parts
import Tablewright.Proofs.Dao.Query
import Tablewright.Proofs.Finder.Names
import Tablewright.Proofs.Schema.Validity

/-! What a data access takes from its table, and its methods. The file declares one function for the
constructor and one for each method, all with distinct names, and its interface one signature for
each method. -/

namespace Tablewright

open Code

namespace Dao

/-- What a data access takes from a table whose identifier is the column `key`. -/
structure IsOf (tb : Table) (key : Column) (d : Dao) : Prop where
  identifier : tb.primaryKeyColumn? = some key
  name : d.name = Names.entity tb.name
  collectionName : d.collectionName = Names.collection tb.name
  tableName : d.tableName = tb.name
  convention : d.convention = tb.convention
  primaryKey : d.primaryKey = field key
  updateFields : d.updateFields = (tb.columns.filter isUpdated).map field
  setsCreatedAt : d.setsCreatedAt = hasTimestamp tb createdAtColumn
  setsUpdatedAt : d.setsUpdatedAt = hasTimestamp tb updatedAtColumn
  setsUserId : d.setsUserId = (tb.convention.isUserScoped && tb.hasColumn userIdColumn)
  hasUserIdGetter :
    d.hasUserIdGetter = (tb.convention.isUserScoped || tb.finders.any (·.isUserScoped))
  methods : d.methods = tb.finders

theorem exists_isOf {tb : Table} {d : Dao} (h : ofTable tb = .ok d) : ∃ key, IsOf tb key d := by
  unfold ofTable at h
  split at h
  · cases h
  · rename_i key hkey
    obtain rfl := Except.ok.inj h
    exact ⟨key, hkey, rfl, rfl, rfl, rfl, rfl, rfl, rfl, rfl, rfl, rfl, rfl⟩

theorem hasTimestamp_iff {tb : Table} {column : String} :
    hasTimestamp tb column = true ↔
      ∃ c, tb.column? column = some c ∧ c.entityType = .timestamp := by
  unfold hasTimestamp
  cases tb.column? column <;> simp

/-! ## Methods -/

variable {d : Dao} {tb : Table} (t : Target)

/-- The signatures of the interface. -/
def signatures (d : Dao) (t : Target) : List Signature :=
  (if d.isReadOnly then [d.findsAllSignature t]
    else [d.entitySignature t "Save", d.entitySignature t "Delete"]) ++
    d.methods.map (d.finderSignature t)

theorem methods?_name : (d.source t).methods? d.name = some (d.signatures t) := by
  have hinterface : Item.methods? d.name (d.interfaceItem t) = some (d.signatures t) := if_pos rfl
  show (d.items t).findSome? _ = _
  unfold items
  rw [List.append_assoc]
  simp only [List.cons_append, List.findSome?_cons, hinterface]

theorem names_signatures : (d.signatures t).map (·.name) = d.methodNames := by
  unfold signatures methodNames
  rw [List.map_append, List.map_map]
  congr 1
  split <;> rfl

theorem names_functions :
    (d.source t).functions.map (·.signature.name) = ("New" ++ d.name) :: d.methodNames := by
  have hlookups : (d.methods.map (d.finderItem t)).filterMap
      (fun item => item.function?.map (·.signature.name)) = d.methods.map (·.name) := by
    rw [List.filterMap_map]
    show d.methods.filterMap (fun f => some f.name) = _
    rw [List.filterMap_eq_map']
  unfold SourceFile.functions
  rw [List.map_filterMap]
  change (d.items t).filterMap _ = _
  unfold items methodNames
  rw [List.filterMap_append, List.filterMap_append, hlookups, ← List.cons_append]
  congr 1
  split <;> rfl

theorem nodup_methodNames (h : ofTable tb = .ok d) : d.methodNames.Nodup := by
  have hmethods := methods_eq_finders h
  have hfixed : (if d.isReadOnly then ["FindsAll"] else ["Save", "Delete"]).Sublist
      Finder.otherMethods := by
    split <;> decide
  have hlookups : (d.methods.map (·.name)).Nodup := by
    rw [hmethods]
    exact Finder.nodup_names_finders tb
  refine List.nodup_append.mpr ⟨hfixed.nodup (by decide), hlookups, ?_⟩
  intro name hname lookup hlookup heq
  obtain ⟨f, hf, rfl⟩ := List.mem_map.mp hlookup
  rw [heq] at hname
  exact Finder.name_notMem_otherMethods (hmethods ▸ hf) (hfixed.mem hname)

theorem head?_mem_of_mem_methodNames (h : ofTable tb = .ok d) {name : String}
    (hname : name ∈ d.methodNames) : name.toList.head? ∈ [some 'F', some 'S', some 'D'] := by
  have hfixed : ∀ n ∈ (if d.isReadOnly then ["FindsAll"] else ["Save", "Delete"]),
      n.toList.head? ∈ [some 'F', some 'S', some 'D'] := by
    split <;> decide
  rcases List.mem_append.mp hname with hmem | hlookup
  · exact hfixed _ hmem
  · obtain ⟨f, hf, rfl⟩ := List.mem_map.mp hlookup
    rw [Finder.head?_name (methods_eq_finders h ▸ hf)]
    decide

theorem new_append_notMem_methodNames (h : ofTable tb = .ok d) (name : String) :
    "New" ++ name ∉ d.methodNames := by
  intro hmem
  have hhead := head?_mem_of_mem_methodNames h hmem
  simp at hhead

/-- Everything that the file declares is exported. -/
theorem head?_mem_of_mem_items (h : ofTable tb = .ok d) {fn : Function}
    (hfn : .func fn ∈ d.items t) :
    fn.signature.name.toList.head? ∈ [some 'N', some 'F', some 'S', some 'D'] := by
  have hname : fn.signature.name ∈ ("New" ++ d.name) :: d.methodNames := by
    rw [← names_functions t]
    exact List.mem_map_of_mem (SourceFile.mem_functions.mpr hfn)
  rcases List.mem_cons.mp hname with hnew | hmethod
  · simp [hnew]
  · exact List.mem_cons_of_mem _ (head?_mem_of_mem_methodNames h hmethod)

/-- Of the functions of the file, each is the only one with its name. -/
theorem functions_named (h : ofTable tb = .ok d) {fn : Function}
    (hfn : fn ∈ (d.source t).functions) :
    (d.source t).functions.filter (·.signature.name = fn.signature.name) = [fn] := by
  have hnodup : ((d.source t).functions.map (·.signature.name)).Nodup := by
    rw [names_functions]
    exact List.nodup_cons.mpr ⟨new_append_notMem_methodNames h d.name, nodup_methodNames h⟩
  exact filter_eq_singleton hnodup hfn (by simp)

theorem signatures_named (h : ofTable tb = .ok d) {s : Signature} (hs : s ∈ d.signatures t) :
    (d.signatures t).filter (·.name = s.name) = [s] := by
  have hnodup : ((d.signatures t).map (·.name)).Nodup := by
    rw [names_signatures]
    exact nodup_methodNames h
  exact filter_eq_singleton hnodup hs (by simp)

end Dao

end Tablewright
