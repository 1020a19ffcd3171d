import MediaCatalogue.Proofs.Store.Conjunction
import MediaCatalogue.Store.Collection

/-!
# Updating one document

An update of the first document that matches leaves the documents before and after it as they are.
If none matches, a replacement is stored at the end. Either way a replacement that may not be stored
fails the update, and then no document has changed.
-/

set_option autoImplicit false

namespace MediaCatalogue

/-- A replacement gives its fields to a document, if they may be stored. -/
theorem Update.apply_replace (replacement d : Document) :
    Update.apply (.replace replacement) d =
      replacement.validate.map fun _ => { d with fields := replacement.fields } := rfl

/-- A document is taken by an update: it stays as it is if the update makes an equal one of it, and
becomes what the update makes of it, which counts as a change, if that is not equal. -/
inductive Update.Takes (u : Update) (d : Document) : Document → Nat → Prop where
  | same {updated : Document} : u.apply d = .ok updated → updated.equals d = true → Takes u d d 0
  | changed {updated : Document} : u.apply d = .ok updated → updated.equals d = false →
    Takes u d updated 1

/-- A document that can be updated is taken to some document. -/
theorem Update.exists_takes {u : Update} {d updated : Document} (h : u.apply d = .ok updated) :
    ∃ d' k, u.Takes d d' k := by
  cases hequal : updated.equals d with
  | true => exact ⟨d, 0, .same h hequal⟩
  | false => exact ⟨updated, 1, .changed h hequal⟩

namespace Collection

section

variable (f : Filter) (u : Update) (multi : Bool)

/-- Documents in front that do not match stay there. -/
theorem updateMatching_append {before : List Document}
    (hbefore : ∀ x ∈ before, f.isMatch x.fields = false) (result : UpdateResult) (ds : List Document) :
    updateMatching f u multi result (before ++ ds) =
      (before ++ (updateMatching f u multi result ds).1, (updateMatching f u multi result ds).2) := by
  induction before with
  | nil => rfl
  | cons x before ih =>
    rw [List.forall_mem_cons] at hbefore
    have hx : ¬ f.isMatch x.fields = true := by simp [hbefore.1]
    rw [List.cons_append, updateMatching, if_neg hx, ih hbefore.2]
    rfl

/-- An update that matches no document leaves all as they are. -/
theorem updateMatching_of_none {ds : List Document} (h : ∀ x ∈ ds, f.isMatch x.fields = false)
    (result : UpdateResult) : updateMatching f u multi result ds = (ds, result, none) := by
  have happend := updateMatching_append f u multi h result []
  simpa [updateMatching] using happend

variable {f u multi}

/-- An update at a document that matches: the document is counted, and so is the change if there is one. -/
theorem updateMatching_of_takes {d d' : Document} {k : Nat} (hd : f.isMatch d.fields = true)
    (h : u.Takes d d' k) (start : UpdateResult) (ds : List Document) :
    updateMatching f u multi start (d :: ds) =
      let counted : UpdateResult := ⟨start.matched + 1, start.modified + k, start.upserted⟩
      if multi then
        let rest := updateMatching f u multi counted ds
        (d' :: rest.1, rest.2)
      else (d' :: ds, counted, none) := by
  rw [updateMatching, if_pos hd]
  cases h with
  | same happly hequal => cases multi <;> simp [happly, hequal]
  | changed happly hequal => cases multi <;> simp [happly, hequal]

end

/-- Looking for a document leaves the documents as they are. -/
theorem documents_findOne (filter : Fields Value) (c : Collection) :
    (c.findOne filter).1.documents = c.documents := by
  unfold findOne find
  cases Filter.ofFields filter <;> rfl

section

variable {filter : Fields Value} {f : Filter} (hf : Filter.ofFields filter = .ok f) (c : Collection)

include hf

/-- With a filter that can be read, a search finds the documents that match, as far as they are
selected. -/
theorem find_eq (s : Selection) :
    (c.find filter s).2 = .ok (s.apply (c.documents.filter fun x => f.isMatch x.fields)) := by
  simp [find, hf]

/-- With a filter that can be read, a search for one document finds the first that matches. -/
theorem findOne_eq :
    (c.findOne filter).2 = .ok (c.documents.find? fun x => f.isMatch x.fields) := by
  simp [findOne, find, hf, Selection.apply, Except.map, List.head?_take]

/-- The first document that matches is the one that is updated. -/
theorem update_of_first (u : Update) (upsert : Bool) {before after : List Document} {d : Document}
    (hdocuments : c.documents = before ++ d :: after)
    (hbefore : ∀ x ∈ before, f.isMatch x.fields = false) (hd : f.isMatch d.fields = true) :
    (c.update filter u upsert false).1.documents =
        (match u.apply d with
          | .error _ => c.documents
          | .ok updated => before ++ (if updated.equals d then d else updated) :: after) ∧
      (c.update filter u upsert false).2.map (fun _ => ()) =
        ((u.apply d).map fun _ => ()).mapError .document := by
  have hupdate := updateMatching_append f u false hbefore {} (d :: after)
  rw [updateMatching, if_pos hd] at hupdate
  cases happly : u.apply d with
  | error e =>
    simp only [happly] at hupdate
    simp [update, hf, hdocuments, hupdate, Except.map, Except.mapError]
  | ok updated =>
    simp only [happly, Bool.false_eq_true, if_false] at hupdate
    cases hsame : updated.equals d <;>
      simp [update, hf, hdocuments, hupdate, hsame, Except.map, Except.mapError]

/-- If no document matches, the replacement is stored at the end. -/
theorem update_of_none (replacement : Document) (multi : Bool)
    (h : ∀ x ∈ c.documents, f.isMatch x.fields = false) :
    (c.update filter (.replace replacement) true multi).1.documents =
        (match replacement.validate with
          | .error _ => c.documents
          | .ok _ => c.documents ++ [replacement]) ∧
      (c.update filter (.replace replacement) true multi).2.map (fun _ => ()) =
        replacement.validate.mapError .document := by
  simp only [update, hf, updateMatching_of_none f _ multi h, upsertDocument, Update.apply_replace]
  cases replacement.validate with
  | error e => exact ⟨rfl, rfl⟩
  | ok u => exact ⟨rfl, rfl⟩

end

end Collection

end MediaCatalogue
