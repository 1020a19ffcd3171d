import MediaCatalogue.Proofs.Store.Conditions
import MediaCatalogue.Proofs.Store.Updating

/-!
# An upsert and its own document

An update that is to store a new document where none matches lets it start from the filter: the values
that the filter asks for are set at their paths, and the values of the update after them. If the filter
asks for plain values only, and the update sets nothing at their paths or on the way there, the document
that is stored matches. So the same update finds it the next time, and sets in it what is there already.
-/

set_option autoImplicit false

namespace MediaCatalogue

/-- An entry of a filter document that asks for a plain value at a path, which a new document can start
from. -/
structure Filter.IsSeed (e : String × Value) : Prop where
  isPath : isOperator e.1 = false
  ne_object : ∀ fields, e.2 ≠ .object fields
  ne_regex : ∀ pattern ignoreCase, e.2 ≠ .regex pattern ignoreCase
  hasNoNaN : e.2.HasNoNaN

namespace Filter.IsSeed

variable {e : String × Value} (h : IsSeed e)

include h

/-- The value of a seed is no object. -/
theorem object?_eq_none : e.2.object? = none := by
  cases hv : e.2 with
  | object fields => exact absurd hv (h.ne_object fields)
  | _ => rfl

/-- A seed is read as equality with its value. -/
theorem ofEntry_eq : ofEntry e.1 e.2 = .ok (.equal e.1 e.2) := by
  refine ofEntry_plain h.isPath ?_
  cases hv : e.2 with
  | object fields => exact absurd hv (h.ne_object fields)
  | regex pattern ignoreCase => exact absurd hv (h.ne_regex pattern ignoreCase)
  | _ => rfl

/-- Fields in which the path leads to the value pass the entry. -/
theorem entryAccepts {x : Fields Value} (hx : Fields.resolve e.1 x = [e.2]) :
    EntryAccepts e.1 e.2 x := by
  rw [entryAccepts_of_ofEntry h.ofEntry_eq]
  simp [isMatch, isEqualAt, hx, anyLeaf, Value.equals_self h.hasNoNaN]

end Filter.IsSeed

namespace Collection

/-- Of a filter document of seeds every entry goes into the new document. -/
theorem seedEntries_eq_self {filter : Fields Value} (h : ∀ e ∈ filter, Filter.IsSeed e) :
    seedEntries filter = filter := by
  refine List.filter_eq_self.2 fun e he => ?_
  obtain ⟨name, value⟩ := e
  have hseed := h _ he
  cases value with
  | object fields => exact absurd rfl (hseed.ne_object fields)
  | regex pattern ignoreCase => exact absurd rfl (hseed.ne_regex pattern ignoreCase)
  | _ => simpa using hseed.isPath

section

variable {filter fields : Fields Value} {id : DocumentId} {d : Document}

/-- The new document: the values of the filter are set first, and then those of the update. -/
theorem exists_seed_of_upsertDocument (hfilter : ∀ e ∈ filter, Filter.IsSeed e)
    (h : upsertDocument filter (.set fields) id = .ok d) :
    ∃ seed, Fields.AssignsAll filter [] seed ∧ Fields.AssignsAll fields seed d.fields ∧
      Fields.HaveNames fields ∧ d.validate = .ok () := by
  rw [upsertDocument, seedEntries_eq_self hfilter] at h
  cases hseed : Document.setPaths filter ⟨id, []⟩ with
  | error e => simp [hseed] at h
  | ok seed =>
    simp only [hseed] at h
    obtain ⟨hassign, hvalid⟩ := Update.apply_eq_ok_iff.1 h
    obtain ⟨hnames, -, hfields⟩ := Document.setPaths_eq_ok_iff.1 hassign
    exact ⟨seed.fields, (Document.setPaths_eq_ok_iff.1 hseed).2.2, hfields, hnames, hvalid⟩

section

variable (hfilter : ∀ e ∈ filter, Filter.IsSeed e) (h : upsertDocument filter (.set fields) id = .ok d)

include hfilter h

/-- The values of the filter are still there after those of the update, so the document matches. -/
theorem isMatch_of_upsertDocument (hsorted : Fields.Sorted filter)
    (hapart : ∀ s ∈ fields, ∀ e ∈ filter, ¬ pathSegments s.1 <+: pathSegments e.1) {f : Filter}
    (hf : Filter.ofFields filter = .ok f) : f.isMatch d.fields = true := by
  obtain ⟨seed, hseed, hset, -, -⟩ := exists_seed_of_upsertDocument hfilter h
  rw [← Filter.accepts_iff_isMatch hf, Filter.accepts_iff]
  intro e he
  have hobject := (hfilter e he).object?_eq_none
  have hfound := hseed.resolve_of_mem hsorted he hobject
  exact (hfilter e he).entryAccepts
    (hset.resolve_eq_singleton hobject (fun s hs => hapart s hs e he) hfound)

/-- The new document has numbers only. -/
theorem hasNoNaN_of_upsertDocument (hfields : (Value.object fields).HasNoNaN) : d.HasNoNaN := by
  obtain ⟨seed, hseed, hset, -, -⟩ := exists_seed_of_upsertDocument hfilter h
  have hempty : (Value.object []).HasNoNaN := Value.hasNoNaN_object.2 (by simp)
  have hvalues : (Value.object filter).HasNoNaN :=
    Value.hasNoNaN_object.2 fun e he => (hfilter e he).hasNoNaN
  exact (hempty.assignsAll hvalues hseed).assignsAll hfields hset

/-- The update makes of the new document what it is. -/
theorem apply_of_upsertDocument (hsorted : Fields.Sorted fields) :
    Update.apply (.set fields) d = .ok d := by
  obtain ⟨seed, -, hset, hnames, hvalid⟩ := exists_seed_of_upsertDocument hfilter h
  rw [Update.apply_eq_ok_iff, Update.assign, Document.setPaths_eq_ok_iff]
  exact ⟨⟨hnames, rfl, hset.again hsorted⟩, hvalid⟩

end

end

section

variable {c c' : Collection} {filter : Fields Value} {u : Update} {upsert multi : Bool}
  {r : UpdateResult}

/-- An update that succeeds has a filter document that can be read. -/
theorem readable_of_update (h : c.update filter u upsert multi = (c', .ok r)) :
    ∃ f, Filter.ofFields filter = .ok f := by
  cases hf : Filter.ofFields filter with
  | error e => simp [update, hf] at h
  | ok f => exact ⟨f, rfl⟩

/-- An update that finds the last document only, and makes an equal one of it, changes nothing. -/
theorem update_of_last {f : Filter} (hf : Filter.ofFields filter = .ok f) {front : List Document}
    {d : Document} (hdocuments : c.documents = front ++ [d])
    (hfront : ∀ x ∈ front, f.isMatch x.fields = false) (hd : f.isMatch d.fields = true)
    (htakes : u.Takes d d 0) :
    c.update filter u upsert multi = (c, .ok { matched := 1, modified := 0, upserted := none }) := by
  have hrun := updateMatching_append f u multi hfront {} [d]
  rw [updateMatching_of_takes hd htakes, ← hdocuments] at hrun
  cases multi <;> simp [update, hf, hrun, updateMatching, ← hdocuments]

end

/-- **An upsert finds its own document.** If nothing matches, the document that it stores does, and the
same update then takes this one document, changes nothing in it, and stores no other. -/
theorem update_upsert_again {c c' : Collection} {filter fields : Fields Value} {multi : Bool}
    {r : UpdateResult} (hfilter : ∀ e ∈ filter, Filter.IsSeed e)
    (hsortedFilter : Fields.Sorted filter) (hsorted : Fields.Sorted fields)
    (hfields : (Value.object fields).HasNoNaN)
    (hapart : ∀ s ∈ fields, ∀ e ∈ filter, ¬ pathSegments s.1 <+: pathSegments e.1)
    (h : c.update filter (.set fields) true multi = (c', .ok r)) (hr : r.matched = 0) :
    ∃ f d, Filter.ofFields filter = .ok f ∧ c'.documents = c.documents ++ [d] ∧
      r.upserted = some d.id ∧ f.isMatch d.fields = true ∧
      c'.update filter (.set fields) true multi =
        (c', .ok { matched := 1, modified := 0, upserted := none }) := by
  obtain ⟨f, hf⟩ := readable_of_update h
  obtain ⟨kept, m, n, hrun, ⟨hm, -, d, hd, hdocuments, rfl⟩ | ⟨hnot, -, rfl⟩⟩ := runs_of_update hf h
  · rw [hrun.eq_of_matched_eq_zero hm] at hdocuments
    have hmatch := isMatch_of_upsertDocument hfilter hd hsortedFilter hapart hf
    have htakes : Update.Takes (.set fields) d d 0 :=
      .same (apply_of_upsertDocument hfilter hd hsorted)
        (Document.equals_self (hasNoNaN_of_upsertDocument hfilter hd hfields))
    exact ⟨f, d, hf, hdocuments, rfl, hmatch,
      update_of_last hf hdocuments (hrun.matched_eq_zero_iff.1 hm) hmatch htakes⟩
  · exact absurd ⟨hr, rfl⟩ hnot

/-- The filter for a title at a price. -/
def finaleFilter : Fields Value :=
  [("policy.revenue", .string "paid"), ("title", .string "Finale")]

/-- What is set beside the price. -/
def finaleFields : Fields Value :=
  [("policy.territory", .string "gb")]

/-- The document that is made of filter and update. -/
def finale : Document :=
  ⟨.generated 0, [("policy", .object [("revenue", .string "paid"), ("territory", .string "gb")]),
    ("title", .string "Finale")]⟩

/-- The collection with the new document at the end. -/
def pilotsAndFinale : Collection :=
  { documents := pilots.documents ++ [finale], writes := 1, generated := 1 }

/-- No pilot has the title of the filter, so the new document is added. -/
theorem update_finale :
    pilots.update finaleFilter (.set finaleFields) true true =
      (pilotsAndFinale, .ok ⟨0, 0, some (.generated 0)⟩) := by
  have hread : Filter.ofFields finaleFilter =
      .ok (.all [.equal "policy.revenue" (.string "paid"), .equal "title" (.string "Finale")]) := rfl
  have hnone : ∀ x ∈ pilots.documents, (Filter.all [.equal "policy.revenue" (.string "paid"),
      .equal "title" (.string "Finale")]).isMatch x.fields = false := by
    simp only [pilots, List.forall_mem_cons]
    exact ⟨rfl, rfl, by simp⟩
  have hprice : Document.setPath "policy.revenue" (.string "paid") ⟨.generated 0, []⟩ =
      .ok ⟨.generated 0, [("policy", .object [("revenue", .string "paid")])]⟩ := rfl
  have htitle : Document.setPath "title" (.string "Finale")
      ⟨.generated 0, [("policy", .object [("revenue", .string "paid")])]⟩ =
      .ok ⟨.generated 0, [("policy", .object [("revenue", .string "paid")]),
        ("title", .string "Finale")]⟩ := rfl
  have hterritory : Document.setPath "policy.territory" (.string "gb")
      ⟨.generated 0, [("policy", .object [("revenue", .string "paid")]), ("title", .string "Finale")]⟩ =
      .ok finale := rfl
  have hvalid : finale.validate = .ok () := rfl
  have hseeds : seedEntries finaleFilter = finaleFilter := rfl
  have hnew : upsertDocument finaleFilter (.set finaleFields)
      (.generated pilots.generated) = .ok finale := by
    rw [upsertDocument, hseeds, pilots]
    simp only [finaleFilter, finaleFields, Document.setPaths, Update.apply, hprice, htitle, hterritory,
      hvalid, Except.map]
  rw [update, hread]
  simp only [updateMatching_of_none _ _ _ hnone, and_self, if_true, hnew]
  rfl

/-- The second time the new document is found by its title and its price, and keeps both. -/
theorem update_upsert_again_finale :
    pilotsAndFinale.update finaleFilter (.set finaleFields) true true =
      (pilotsAndFinale, .ok { matched := 1, modified := 0, upserted := none }) := by
  have hfilter : ∀ e ∈ finaleFilter, Filter.IsSeed e := by
    simp only [finaleFilter, List.forall_mem_cons]
    exact ⟨⟨by decide, by simp, by simp, Value.hasNoNaN_string _⟩,
      ⟨by decide, by simp, by simp, Value.hasNoNaN_string _⟩, by simp⟩
  have hsortedFilter : Fields.Sorted finaleFilter := by
    unfold Fields.Sorted
    decide
  have hsorted : Fields.Sorted finaleFields := by
    unfold Fields.Sorted
    decide
  have hfields : (Value.object finaleFields).HasNoNaN := by
    simp [finaleFields, Value.hasNoNaN_object, Value.hasNoNaN_string]
  have hapart : ∀ s ∈ finaleFields, ∀ e ∈ finaleFilter,
      ¬ pathSegments s.1 <+: pathSegments e.1 := by decide
  obtain ⟨-, -, -, -, -, -, hagain⟩ :=
    update_upsert_again hfilter hsortedFilter hsorted hfields hapart update_finale rfl
  exact hagain

end Collection

end MediaCatalogue
