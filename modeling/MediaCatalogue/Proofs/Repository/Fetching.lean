import MediaCatalogue.Proofs.Query.Retrimming
import MediaCatalogue.Proofs.Repository.Answers
import MediaCatalogue.Proofs.Repository.Lookup
import MediaCatalogue.Proofs.Repository.Paging

/-!
# Answers from what is kept

A repository that comes about by writing keeps a list of content, and its documents are the documents
of this content. So a query is answered from the list: a filter chooses from it, in order, and what
is chosen is read back as it was written, unless it is too much. What uris find is put in the order
of the request by a stable sort, so that choosing from an answer is choosing from what was sorted.
-/

set_option autoImplicit false

namespace MediaCatalogue

namespace Content

/-- Documents of content are read as that content, if there are not too many. -/
theorem ofDocumentsUpTo_toDocument {limit before : Nat} (cs : List Content) (hbefore : before ≤ limit) :
    ofDocumentsUpTo limit before (cs.map toDocument) =
      if before + cs.length ≤ limit then .ok cs else .error (.tooManyResults limit) := by
  split
  · rename_i hfew
    refine ofDocumentsUpTo_of_length_le (List.forall₂_map_left_iff.2 ?_) (by simpa using hfew)
    exact List.forall₂_same.2 fun c _ => c.ofDocument_toDocument
  · rename_i hmany
    refine ofDocumentsUpTo_of_lt_length hbefore (by simpa using hmany) fun d hd => ?_
    obtain ⟨c, -, rfl⟩ := List.mem_map.1 (List.mem_of_mem_take hd)
    exact ⟨c, c.ofDocument_toDocument⟩

/-- The content whose documents a filter matches. -/
def matching (f : Filter) (kept : List Content) : List Content :=
  kept.filter fun c => f.isMatch c.toDocument.fields

end Content

open Content

namespace Repository

variable {r : Repository} {content groups : List Content} (h : r.Keeps content groups)

include h

/-- A search finds the documents of the matching content in the window. -/
theorem Keeps.find_eq {f : Fields Value} {g : Filter} (hg : Filter.ofFields f = .ok g) (s : Selection) :
    (r.content.find f s).2 = .ok ((s.apply (matching g content)).map toDocument) := by
  have hmatching : (content.map toDocument).filter (fun x => g.isMatch x.fields) =
      (matching g content).map toDocument := by
    rw [List.filter_map]
    rfl
  rw [Collection.find_eq hg, h.content_eq, hmatching, s.map_apply]

/-- The store answers with the matching content in the window, up to the limit. -/
theorem Keeps.discover_eq {f : Fields Value} {g : Filter} (hg : Filter.ofFields f = .ok g) (limit : Nat)
    (s : Selection) :
    (r.discover limit f s).2 =
      if (s.apply (matching g content)).length ≤ limit then .ok (s.apply (matching g content))
      else .error (.tooManyResults limit) := by
  have hread := ofDocumentsUpTo_toDocument (s.apply (matching g content)) (Nat.zero_le limit)
  rw [Nat.zero_add] at hread
  unfold discover
  dsimp only
  rw [h.find_eq hg]
  exact hread

end Repository

namespace Discovery

/-- A query fetches, of content that is kept, that whose documents match its filter document. -/
def Fetches (d : Discovery) (q : Query) (kept fetched : List Content) : Prop :=
  ∃ f g, filter (d.restrict q) = .ok f ∧ Filter.ofFields f = .ok g ∧ fetched = matching g kept

section

variable {d : Discovery} {q : Query} {r : Repository} {content groups : List Content}
  (h : r.Keeps content groups)

include h

/-- An answer is what trimming leaves of what is fetched and lies in the window, if that is not too
much. -/
theorem discover_ok_iff (hnothing : q.matchesNothing = false) {found : List Content} :
    (d.discover q r).2 = .ok found ↔
      ∃ fetched, d.Fetches q content fetched ∧ (q.selection.apply fetched).length ≤ d.maxResults ∧
        found = (d.restrict q).trim true (q.selection.apply fetched) := by
  unfold Fetches
  rw [discover_steps hnothing]
  cases hf : filter (d.restrict q) with
  | error e => simp
  | ok f =>
    dsimp only
    cases hg : Filter.ofFields f with
    | error e =>
      rw [Repository.discover_of_error hg]
      simp [hg]
    | ok g =>
      rw [h.discover_eq hg]
      by_cases hlimit : (q.selection.apply (matching g content)).length ≤ d.maxResults
      · simp [hlimit, hg, eq_comm]
      · simp [hlimit, hg]

/-- The content that matches a query in the repository is what the query fetches. -/
theorem matched_iff (hnothing : q.matchesNothing = false) {matched : List Content} :
    d.Matched q r matched ↔ d.Fetches q content matched := by
  unfold Matched Fetches
  rw [if_neg (by simp [hnothing])]
  refine exists_congr fun f => exists_congr fun g => and_congr_right fun _ => and_congr_right fun _ => ?_
  have hread : (r.content.documents.filter fun x => g.isMatch x.fields).map ofDocument =
      (matching g content).map .ok := by
    rw [h.content_eq, List.filter_map, List.map_map]
    exact List.map_congr_left fun c _ => c.ofDocument_toDocument
  rw [hread, eq_comm]
  exact (List.map_injective_iff.2 fun _ _ => Except.ok.inj).eq_iff

/-- A query for known attributes that can be compiled, and that asks for no beginning that is too long
to be looked for, is answered from what it fetches, unless that is too much. -/
theorem exists_discover_eq_of_compile {document : Fields Value} (hcompile : q.compile = .ok document)
    (hknown : ∀ k ∈ q.constraints, k.subject ∈ Attribute.all)
    (hpattern : ∀ k ∈ q.constraints, k.HasPattern) :
    ∃ fetched, d.Fetches q content fetched ∧
      (d.discover q r).2 =
        if (q.selection.apply fetched).length ≤ d.maxResults then
          .ok ((d.restrict q).trim true (q.selection.apply fetched))
        else .error (.repository (.tooManyResults d.maxResults)) := by
  obtain ⟨ds, hconditions, hdocument⟩ := Query.compile_spec hcompile hknown
  -- the filter document that the store is asked with can be read
  obtain ⟨f, hf, hreadable, -⟩ := filter_spec ((d.compile_restrict q).trans hcompile)
    (Query.isPlainFilter_of_compile hcompile hknown)
  obtain ⟨g, hg⟩ := hreadable.2 (hdocument ▸ hconditions.readable_of_hasPattern hpattern)
  refine ⟨matching g content, ⟨f, g, hf, hg, rfl⟩, ?_⟩
  rw [discover_steps (Query.matchesNothing_of_compile hcompile), hf]
  dsimp only
  rw [h.discover_eq hg]
  by_cases hlimit : (q.selection.apply (matching g content)).length ≤ d.maxResults
  · rw [if_pos hlimit, if_pos hlimit]
  · rw [if_neg hlimit, if_neg hlimit]

/-- Such a query is answered, if it has no window and not too much matches. -/
theorem exists_discover_ok (hknown : ∀ k ∈ q.constraints, k.subject ∈ Attribute.all)
    (hpattern : ∀ k ∈ q.constraints, k.HasPattern) (hcompiles : ∃ document, q.compile = .ok document)
    (hselection : q.selection.restricts = false) (hlimit : d.IsWithinLimit q r) :
    ∃ found, (d.discover q r).2 = .ok found := by
  obtain ⟨document, hcompile⟩ := hcompiles
  obtain ⟨fetched, ⟨f, g, hf, hg, rfl⟩, hdiscover⟩ :=
    exists_discover_eq_of_compile h hcompile hknown hpattern
  have hcount := hlimit f _ hf (h.find_eq hg {})
  rw [List.length_map, Selection.apply_of_not_restricts rfl] at hcount
  rw [Selection.apply_of_not_restricts hselection, if_pos hcount] at hdiscover
  exact ⟨_, hdiscover⟩

/-- Uris are always answered. -/
theorem findByUris_eq (uris : List String) :
    (d.findByUris uris q r).2 =
      .ok (inRequestOrder uris ((d.restrict q).trim d.filterUriQueries
        (Content.distinct [] (namedAmong uris content ++ namedAmong uris groups)))) := by
  have hstore := h.findByUris_eq uris
  unfold findByUris
  cases hnothing : q.matchesNothing with
  | true => simp [Query.trim, d.matchesNothing_restrict, hnothing, inRequestOrder]
  | false =>
    rw [if_neg Bool.false_ne_true]
    dsimp only
    generalize r.findByUris uris = answer at hstore
    obtain ⟨r', found⟩ := answer
    dsimp only at hstore
    subst hstore
    rfl

end

/-- **Nothing goes wrong inside.** In a repository that comes about by writing, whether or not each
write succeeds, a query for known attributes is answered, or refused where it is compiled, or there
is too much to answer with, as long as the text of every beginning can be looked for; a request by
uris is always answered. -/
theorem discover_cases (d : Discovery) (q : Query) (r : Repository) (hr : r.Reachable) :
    ((∀ k ∈ q.constraints, k.subject ∈ Attribute.all) → (∀ k ∈ q.constraints, k.HasPattern) →
        (∃ found, (d.discover q r).2 = .ok found) ∨
        (∃ e, q.compile = .error e ∧ (d.discover q r).2 = .error (.query e)) ∨
        (d.discover q r).2 = .error (.repository (.tooManyResults d.maxResults))) ∧
      ∀ uris, ∃ found, (d.findByUris uris q r).2 = .ok found := by
  obtain ⟨content, groups, hkeeps⟩ := hr.exists_keeps
  refine ⟨fun hknown hpattern => ?_, fun uris => ⟨_, findByUris_eq hkeeps uris⟩⟩
  cases hcompile : q.compile with
  | ok document =>
    obtain ⟨fetched, -, hdiscover⟩ := exists_discover_eq_of_compile (d := d) hkeeps hcompile hknown hpattern
    split at hdiscover
    · exact Or.inl ⟨_, hdiscover⟩
    · exact Or.inr (Or.inr hdiscover)
  | error e =>
    by_cases hnothing : q.matchesNothing = true
    · exact Or.inl ⟨[], by rw [discover, if_pos hnothing]⟩
    · have hfilter : filter (d.restrict q) = .error e := by
        rw [filter, d.compile_restrict, hcompile]
        rfl
      exact Or.inr (Or.inl ⟨e, rfl, by rw [discover_steps (by simpa using hnothing), hfilter]⟩)

/-- A brand with the uri of an item that is there is refused, after its own item has been stored. -/
def brandRefused : Repository :=
  Repository.afterWriting [Repository.itemAt "/brand", Repository.brandOf [.item (itemTitled "Silk")]]

/-- Titles that begin with a letter can be asked for where a write has failed halfway: if there is no
answer, there is too much to answer with. -/
theorem discover_cases_brandRefused :
    brandRefused.content.documents = [(Repository.itemAt "/brand").toDocument,
        (Content.item { itemTitled "Silk" with container := some "/brand" }).toDocument] ∧
      (∀ e, (({} : Discovery).discover (titleQuery [(.beginning, "s")]) brandRefused).2 = .error e →
        e = .repository (.tooManyResults 20000)) ∧
      ∃ found, (({} : Discovery).findByUris ["/item"] (titleQuery [(.beginning, "s")]) brandRefused).2 =
        .ok found := by
  have hpattern : ∀ k ∈ (titleQuery [(.beginning, "s")]).constraints, k.HasPattern := by
    intro k hk first rest _ hoperands
    cases List.mem_singleton.1 hk
    cases hoperands
    exact Option.isSome_iff_exists.2 Pattern.exists_ofText?_s
  obtain ⟨hdiscover, hfind⟩ := discover_cases {} (titleQuery [(.beginning, "s")]) brandRefused
    (Repository.reachable_afterWriting _)
  refine ⟨rfl, fun e he => ?_, hfind ["/item"]⟩
  rcases hdiscover (by decide) hpattern with ⟨found, hfound⟩ | ⟨e', he', -⟩ | hlimit
  · rw [hfound] at he
    cases he
  · have hcompile : (titleQuery [(.beginning, "s")]).compile =
        .ok [("title", .regex ("^" ++ Pattern.escape "s") true)] := by
      rw [Query.compile_eq rfl rfl]
      rfl
    rw [hcompile] at he'
    cases he'
  · rw [hlimit] at he
    cases he
    rfl

end Discovery

/-! ## The order of a request -/

section

variable {α : Type} {le : α → α → Bool} (htrans : ∀ a b c, le a b → le b c → le a c)
  (htotal : ∀ a b, le a b || le b a)

include htrans htotal

/-- Where an element comes in a sorted list: behind all that it is not less or equal to, in front of
the rest. -/
theorem mergeSort_cons_eq (a : α) (as : List α) :
    (a :: as).mergeSort le =
      (as.mergeSort le).filter (fun b => !le a b) ++ a :: (as.mergeSort le).filter fun b => le a b := by
  obtain ⟨before, after, hsorted, hrest, hbefore⟩ := List.mergeSort_cons htrans htotal a as
  have hpairwise := List.pairwise_mergeSort htrans htotal (a :: as)
  rw [hsorted, List.pairwise_append, List.pairwise_cons] at hpairwise
  have hafter : ∀ b ∈ after, le a b = true := hpairwise.2.1.1
  have hchosen : (before ++ after).filter (fun b => !le a b) = before := by
    rw [List.filter_append, List.filter_eq_self.2 hbefore,
      List.filter_eq_nil_iff.2 fun b hb => by simp [hafter b hb], List.append_nil]
  have hothers : (before ++ after).filter (fun b => le a b) = after := by
    rw [List.filter_append, List.filter_eq_self.2 hafter,
      List.filter_eq_nil_iff.2 fun b hb => by simpa using hbefore b hb, List.nil_append]
  rw [hsorted, hrest, hchosen, hothers]

/-- Choosing from a list and sorting it stably can be done in either order. -/
theorem filter_mergeSort (p : α → Bool) (as : List α) :
    (as.mergeSort le).filter p = (as.filter p).mergeSort le := by
  induction as with
  | nil => simp
  | cons a as ih =>
    by_cases hp : p a = true
    · have hchosen : ∀ q : α → Bool,
          ((as.mergeSort le).filter q).filter p = ((as.filter p).mergeSort le).filter q := by
        intro q
        rw [List.filter_comm, ih]
      rw [List.filter_cons_of_pos hp, mergeSort_cons_eq htrans htotal, mergeSort_cons_eq htrans htotal,
        List.filter_append, List.filter_cons_of_pos hp, hchosen, hchosen]
    · obtain ⟨before, after, hsorted, hrest, -⟩ := List.mergeSort_cons htrans htotal a as
      rw [List.filter_cons_of_neg hp, ← ih, hsorted, hrest, List.filter_append, List.filter_append,
        List.filter_cons_of_neg hp]

end

section

variable (uris : List String) (a b c : Content)

/-- The order of places in a request is transitive. -/
theorem requestPosition_trans (hab : decide (requestPosition uris a ≤ requestPosition uris b) = true)
    (hbc : decide (requestPosition uris b ≤ requestPosition uris c) = true) :
    decide (requestPosition uris a ≤ requestPosition uris c) = true :=
  decide_eq_true ((of_decide_eq_true hab).trans (of_decide_eq_true hbc))

/-- Of two places in a request one is not behind the other. -/
theorem requestPosition_total :
    (decide (requestPosition uris a ≤ requestPosition uris b) ||
      decide (requestPosition uris b ≤ requestPosition uris a)) = true := by
  rw [Bool.or_eq_true, decide_eq_true_eq, decide_eq_true_eq]
  exact Nat.le_total _ _

end

/-- Choosing from results in the order of a request is ordering the chosen ones. -/
theorem filter_inRequestOrder (uris : List String) (p : Content → Bool) (cs : List Content) :
    (inRequestOrder uris cs).filter p = inRequestOrder uris (cs.filter p) :=
  filter_mergeSort (requestPosition_trans uris) (requestPosition_total uris) p cs

/-- Ordering results neither adds nor drops one. -/
theorem mem_inRequestOrder {uris : List String} {cs : List Content} {c : Content} :
    c ∈ inRequestOrder uris cs ↔ c ∈ cs :=
  List.mem_mergeSort

end MediaCatalogue
