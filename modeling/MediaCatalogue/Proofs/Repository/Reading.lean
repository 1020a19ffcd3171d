import MediaCatalogue.Proofs.Document.Fields
import MediaCatalogue.Proofs.Store.Replacement
import MediaCatalogue.Repository.Basic

/-!
# Reading what is found

The documents that a filter finds are read one after another, up to a limit. One document more than the
limit is read before it is too much, so a document that is no content is reported first if it is among
those; behind them nothing is looked at. Each outcome comes from one fact: as long as documents can be read
and the limit is not passed, reading goes on to those behind, and what was read stays.
-/

set_option autoImplicit false

namespace MediaCatalogue

namespace Content

variable {limit before : Nat}

/-- What documents are read as are as many pieces of content, in their order. -/
theorem forall₂_of_ofDocumentsUpTo {ds : List Document} {cs : List Content}
    (h : ofDocumentsUpTo limit before ds = .ok cs) :
    List.Forall₂ (fun d c => ofDocument d = .ok c) ds cs := by
  induction ds generalizing before cs with
  | nil =>
    cases h
    exact .nil
  | cons d ds ih =>
    rw [ofDocumentsUpTo] at h
    split at h
    · cases h
    · rename_i c hc
      split at h
      · cases h
      · split at h
        · cases h
        · rename_i rest hrest
          cases h
          exact .cons hc (ih hrest)

section

variable {front : List Document} {cs : List Content}
  (hfront : List.Forall₂ (fun d c => ofDocument d = .ok c) front cs)

include hfront

/-- Documents that can be read and fit the limit are passed. -/
theorem ofDocumentsUpTo_append (hfits : before + front.length ≤ limit) (rest : List Document) :
    ofDocumentsUpTo limit before (front ++ rest) =
      (ofDocumentsUpTo limit (before + front.length) rest).map (cs ++ ·) := by
  induction hfront generalizing before with
  | nil =>
    simp only [List.nil_append, List.length_nil, Nat.add_zero]
    cases ofDocumentsUpTo limit before rest <;> rfl
  | @cons d c front cs hc _ ih =>
    rw [List.length_cons] at hfits ⊢
    have hnext : before + 1 + front.length ≤ limit := by omega
    rw [List.cons_append, ofDocumentsUpTo, hc]
    dsimp only
    rw [if_neg (by omega), ih hnext, Nat.add_assoc before, Nat.add_comm 1]
    cases ofDocumentsUpTo limit (before + (front.length + 1)) rest <;> rfl

/-- Documents of content that fit the limit are all read. -/
theorem ofDocumentsUpTo_of_length_le (hfits : before + front.length ≤ limit) :
    ofDocumentsUpTo limit before front = .ok cs := by
  have hall := ofDocumentsUpTo_append hfront hfits []
  rw [List.append_nil] at hall
  rw [hall]
  simp [ofDocumentsUpTo, Except.map]

/-- The first document that is no content is reported if those in front fit the limit. -/
theorem ofDocumentsUpTo_of_error (hfits : before + front.length ≤ limit) {d : Document}
    (rest : List Document) {e : RecordError} (hd : ofDocument d = .error e) :
    ofDocumentsUpTo limit before (front ++ d :: rest) = .error (.record e) := by
  rw [ofDocumentsUpTo_append hfront hfits, ofDocumentsUpTo, hd]
  rfl

end

/-- One document more than the limit is read before it is too much. -/
theorem ofDocumentsUpTo_of_lt_length {ds : List Document} (hbefore : before ≤ limit)
    (hmany : limit < before + ds.length)
    (hread : ∀ d ∈ ds.take (limit - before + 1), ∃ c, ofDocument d = .ok c) :
    ofDocumentsUpTo limit before ds = .error (.tooManyResults limit) := by
  have hlast : limit - before < ds.length := by omega
  have hsplit : ds = ds.take (limit - before) ++ ds[limit - before] :: ds.drop (limit - before + 1) := by
    rw [← List.drop_eq_getElem_cons hlast, List.take_append_drop]
  rw [List.take_succ_eq_append_getElem hlast, List.forall_mem_append, List.forall_mem_singleton] at hread
  obtain ⟨hfront, c, hc⟩ := hread
  obtain ⟨cs, hcs⟩ := exists_forall₂_iff.2 hfront
  have hfull : before + (ds.take (limit - before)).length = limit := by
    rw [List.length_take_of_le hlast.le]
    omega
  rw [hsplit, ofDocumentsUpTo_append hcs hfull.le, hfull, ofDocumentsUpTo, hc]
  dsimp only
  rw [if_pos (Nat.lt_succ_self limit)]
  rfl

end Content

namespace Repository

variable {f : Fields Value} {limit : Nat} {s : Selection} {r : Repository}

/-- The store answers with what is read from the documents that match and lie in the window. -/
theorem discover_eq {g : Filter} (hg : Filter.ofFields f = .ok g) :
    (r.discover limit f s).2 = Content.ofDocumentsUpTo limit 0
      (s.apply (r.content.documents.filter fun x => g.isMatch x.fields)) := by
  have hfind := Collection.find_eq (c := r.content) hg s
  unfold discover
  dsimp only
  rw [hfind]

/-- A filter document that cannot be read is reported. -/
theorem discover_of_error {e : FilterError} (h : Filter.ofFields f = .error e) :
    (r.discover limit f s).2 = .error (.store (.filter e)) := by
  simp [discover, Collection.find, h]

/-- The documents of content that match a filter and lie in a window. -/
def selected (g : Filter) (s : Selection) (r : Repository) : List Document :=
  s.apply (r.content.documents.filter fun x => g.isMatch x.fields)

/-- **The limit of results.** Whatever documents there are, of those that are selected for a filter that
can be read one more than the limit is looked at. The first of these that is no content is reported; if
all of them are content, there are too many, or else every document is read. -/
theorem discover_limit_cases (r : Repository) {g : Filter} (hg : Filter.ofFields f = .ok g) (s : Selection)
    (limit : Nat) :
    (r.content.find f s).2 = .ok (r.selected g s) ∧
      (∀ front d rest e, r.selected g s = front ++ d :: rest → front.length ≤ limit →
        (∀ x ∈ front, ∃ c, Content.ofDocument x = .ok c) → Content.ofDocument d = .error e →
          (r.discover limit f s).2 = .error (.record e)) ∧
      ((∀ x ∈ (r.selected g s).take (limit + 1), ∃ c, Content.ofDocument x = .ok c) →
        (limit < (r.selected g s).length →
          (r.discover limit f s).2 = .error (.tooManyResults limit)) ∧
        ((r.selected g s).length ≤ limit →
          ∃ cs, List.Forall₂ (fun d c => Content.ofDocument d = .ok c) (r.selected g s) cs ∧
            (r.discover limit f s).2 = .ok cs)) := by
  have hdiscover : (r.discover limit f s).2 = Content.ofDocumentsUpTo limit 0 (r.selected g s) :=
    discover_eq hg
  refine ⟨Collection.find_eq (c := r.content) hg s, ?_, fun hread => ⟨fun hmany => ?_, fun hfew => ?_⟩⟩
  · intro front d rest e hselected hfits hread hd
    obtain ⟨cs, hcs⟩ := exists_forall₂_iff.2 hread
    rw [hdiscover, hselected, Content.ofDocumentsUpTo_of_error hcs (by omega) rest hd]
  · rw [hdiscover, Content.ofDocumentsUpTo_of_lt_length (Nat.zero_le limit) (by omega) hread]
  · rw [List.take_of_length_le (by omega)] at hread
    obtain ⟨cs, hcs⟩ := exists_forall₂_iff.2 hread
    exact ⟨cs, hcs, by rw [hdiscover, Content.ofDocumentsUpTo_of_length_le hcs (by omega)]⟩

/-- An item in front of a document without a type. -/
def itemAndUntyped : Repository :=
  { content := { documents := [(Content.item {}).toDocument, ⟨.ofKey "/untyped", []⟩] } }

/-- With a limit of one the second document is looked at, with a limit of none the item is too many. -/
theorem discover_limit_cases_itemAndUntyped :
    Filter.ofFields [] = .ok .everything ∧
      (itemAndUntyped.discover 1 [] {}).2 = .error (.record (.missingField "type" "content")) ∧
      (itemAndUntyped.discover 0 [] {}).2 = .error (.tooManyResults 0) := by
  have hg : Filter.ofFields [] = .ok .everything := rfl
  have hitem : Content.ofDocument (Content.item {}).toDocument = .ok (.item {}) := rfl
  obtain ⟨-, hone, -⟩ := discover_limit_cases itemAndUntyped hg {} 1
  obtain ⟨-, -, hnone⟩ := discover_limit_cases itemAndUntyped hg {} 0
  refine ⟨hg, ?_, ?_⟩
  · refine hone [(Content.item {}).toDocument] ⟨.ofKey "/untyped", []⟩ [] _ rfl (by decide) ?_ rfl
    exact List.forall_mem_singleton.2 ⟨_, hitem⟩
  · refine (hnone ?_).1 (by decide)
    exact List.forall_mem_singleton.2 ⟨_, hitem⟩

end Repository

end MediaCatalogue
