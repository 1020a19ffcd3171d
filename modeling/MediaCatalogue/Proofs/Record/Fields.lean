import MediaCatalogue.Record.Content
import MediaCatalogue.Proofs.Document.Fields
import MediaCatalogue.Proofs.Store.Conditions

/-!
# Looking into records

What a record holds under a name is what its entries say, since they have names of their own. A path
of one name leads to that field; a path of several leads through the stored lists, and so to a field
of each record in the lists on the way.
-/

set_option autoImplicit false

namespace MediaCatalogue

namespace Record

/-! ## Fields of a record -/

/-- Under the name of an entry stands its value, if it has one. -/
theorem get?_ofEntries (name : String) {entries : List (String × Option Value)}
    (h : (entries.map Prod.fst).Nodup) :
    Fields.get? name (ofEntries entries) = (Fields.get? name entries).join := by
  have hsub : ((entries.filterMap fun e => e.2.map fun v => (e.1, v)).map Prod.fst).Sublist
      (entries.map Prod.fst) := by
    clear h
    induction entries with
    | nil => simp
    | cons e entries ih =>
      obtain ⟨n, _ | v⟩ := e
      · exact ih.cons n
      · exact ih.cons_cons n
  rw [ofEntries, Fields.ofList, Fields.get?_insertAll name (hsub.nodup h)]
  clear hsub
  induction entries with
  | nil => rfl
  | cons e entries ih =>
    obtain ⟨n, o⟩ := e
    rw [List.map_cons, List.nodup_cons] at h
    have hrest := ih h.2
    by_cases hn : n = name
    · subst hn
      cases o with
      | some v => simp [Fields.get?]
      | none =>
        -- no later entry has the name again
        have hnone : Fields.get? n entries = none := by
          rw [← Option.not_isSome_iff_eq_none, Option.isSome_iff_exists]
          rintro ⟨w, hw⟩
          exact h.1 (List.mem_map.2 ⟨_, Fields.mem_of_get? hw, rfl⟩)
        simpa [Fields.get?, hnone] using hrest
    · cases o <;> simpa [Fields.get?, hn] using hrest

/-! ## Paths into records -/

/-- A path of one name leads to what is under the name. -/
theorem resolve_name {name : String} (h : pathSegments name = [name]) (fields : Fields Value) :
    Fields.resolve name fields = (Fields.get? name fields).toList := by
  simp [Fields.resolve, Value.resolve, h, Value.children]

/-- A path of several names leads on from what its first name leads to. -/
theorem resolve_cons {path first : String} {rest : List String}
    (h : pathSegments path = first :: rest) (fields : Fields Value) :
    Fields.resolve path fields = Value.resolve ([fields].filterMap (Fields.get? first)) rest := by
  rw [Fields.resolve, h, Value.resolve, List.foldl_cons, ← Value.resolve]
  cases hget : Fields.get? first fields <;> simp [Value.children, hget]

/-! ## Stored lists -/

/-- A name leads from the stored records of a list to what each of them has under it. -/
theorem children_listValue {name : String} (h : arrayIndex? name = none) (rs : List (Fields Value)) :
    (listValue rs).toList.flatMap (Value.children name) = rs.filterMap (Fields.get? name) := by
  cases rs with
  | nil => rfl
  | cons r rs =>
    have hitems : Value.children name (.array ((r :: rs).map .object)) =
        (r :: rs).filterMap (Fields.get? name) := by
      simp only [Value.children, h, List.filterMap_map]
      rfl
    simpa [listValue] using hitems

/-- The objects in the stored form of a list are its records. -/
theorem objectsIn_listValue (rs : List (Fields Value)) :
    Value.objectsIn (listValue rs).toList = rs := by
  cases rs with
  | nil => rfl
  | cons r rs =>
    have hitems : ((r :: rs).map Value.object).filterMap Value.object? = r :: rs := by
      rw [List.filterMap_map]
      exact List.filterMap_some
    simpa [Value.objectsIn, listValue, Value.array?] using hitems

section

variable {α : Type} {name : String} {inner : α → List (Fields Value)} {record : α → Fields Value}
  (hinner : ∀ a, Fields.get? name (record a) = listValue (inner a))

include hinner

/-- What is found under a name in some records are the lists that are stored there. -/
theorem flatMap_get? {β : Type} (f : Value → List β) (as : List α) :
    ((as.map record).filterMap (Fields.get? name)).flatMap f =
      as.flatMap fun a => (listValue (inner a)).toList.flatMap f := by
  induction as with
  | nil => rfl
  | cons a as ih =>
    rw [List.map_cons, List.filterMap_cons, List.flatMap_cons, ← hinner a, ← ih]
    cases Fields.get? name (record a) <;> simp

/-- One more step leads from the lists stored in some records to a field of each record in the
lists. -/
theorem resolve_step {next : String} (hnext : arrayIndex? next = none) (rest : List String)
    (as : List α) :
    Value.resolve ((as.map record).filterMap (Fields.get? name)) (next :: rest) =
      Value.resolve ((as.flatMap inner).filterMap (Fields.get? next)) rest := by
  rw [Value.resolve, List.foldl_cons, ← Value.resolve, flatMap_get? hinner]
  simp only [children_listValue hnext, List.filterMap_flatMap]

/-- The objects in the lists stored in some records are the records in the lists. -/
theorem objectsIn_step (as : List α) :
    Value.objectsIn ((as.map record).filterMap (Fields.get? name)) = as.flatMap inner := by
  rw [Value.objectsIn, flatMap_get? hinner]
  exact congrArg as.flatMap (funext fun a => objectsIn_listValue (inner a))

end

end Record

/-- The uris of a document lie beside the record of its content. -/
theorem Content.get?_toDocument (c : Content) {name : String} (h : name ≠ "lookup") :
    Fields.get? name c.toDocument.fields = Fields.get? name c.toRecord :=
  Fields.get?_insert_of_ne h _ _

end MediaCatalogue
