import MediaCatalogue.Proofs.Repository.Fetching

/-!
# Answers in the order of the request

A request by uris is answered in three steps, and only the last of them looks at the order in which the
uris stand. The store is asked for what any of them finds, and what is found is trimmed piece by piece; so
up to here two requests for the same uris come to the same. Then the results are put in order by the first
uri that names them, by a sort that is stable, so that results in the same place stay as they were found.
-/

set_option autoImplicit false

namespace MediaCatalogue

/-! ## The same uris -/

namespace Content

section

variable {uris uris' : List String} (h : ∀ u, u ∈ uris ↔ u ∈ uris')

include h

/-- Uris in another order are known of the same content. -/
theorem isKnownAsAny_congr : isKnownAsAny uris = isKnownAsAny uris' := by
  funext c
  rw [Bool.eq_iff_iff, isKnownAsAny_iff, isKnownAsAny_iff]
  simp only [h]

/-- Uris in another order find and name the same. -/
theorem namedAmong_congr (kept : List Content) : namedAmong uris kept = namedAmong uris' kept := by
  have hfound : isFoundBy uris = isFoundBy uris' := by
    funext c
    rw [isFoundBy, isFoundBy, isKnownAsAny_congr h]
  have hnamed : named uris = named uris' := by
    funext c
    unfold named
    rw [isKnownAsAny_congr h]
  rw [namedAmong, namedAmong, hfound, hnamed]

end

end Content

open Content

/-! ## Results and what they were -/

/-- Trimming keeps the uris of what it leaves, in their order. -/
theorem Query.map_uri_trim_sublist (q : Query) (remove : Bool) (cs : List Content) :
    ((q.trim remove cs).map uri).Sublist (cs.map uri) := by
  cases hnothing : q.matchesNothing with
  | true => simp [trim, hnothing]
  | false =>
    have huri : uri ∘ (TrimScope.ofQuery q).pruned = uri :=
      funext fun c => congrArg Described.canonicalUri ((TrimScope.ofQuery q).described_pruned c)
    rw [trim_eq_map_pruned q remove cs hnothing, List.map_map, huri]
    exact List.filter_sublist.map uri

/-! ## The order of results -/

section

variable (uris : List String) (cs : List Content)

/-- The place of content is where its first uri stands, or behind the last of the request. -/
theorem requestPosition_eq (c : Content) :
    requestPosition uris c = uris.findIdx c.described.isKnownAs :=
  List.findIdx_eq_getD_findIdx?.symm

/-- Results in the order of a request stand by their places in it. -/
theorem pairwise_inRequestOrder :
    (inRequestOrder uris cs).Pairwise fun a b => requestPosition uris a ≤ requestPosition uris b := by
  have hsorted := List.pairwise_mergeSort (requestPosition_trans uris) (requestPosition_total uris) cs
  exact hsorted.imp of_decide_eq_true

/-- What is in the same place stays in the order in which it was. -/
theorem filter_position_inRequestOrder (k : Nat) :
    (inRequestOrder uris cs).filter (fun c => requestPosition uris c == k) =
      cs.filter fun c => requestPosition uris c == k := by
  rw [filter_inRequestOrder, inRequestOrder]
  apply List.mergeSort_of_pairwise
  refine List.pairwise_of_forall_mem_list fun a ha b hb => ?_
  have hposition : ∀ c ∈ cs.filter (fun c => requestPosition uris c == k), requestPosition uris c = k :=
    fun c hc => by simpa using (List.mem_filter.1 hc).2
  rw [decide_eq_true_eq, hposition a ha, hposition b hb]

/-- Of two results in the same place, the first to be found comes first. -/
theorem sublist_of_inRequestOrder {a b : Content} (h : [a, b].Sublist (inRequestOrder uris cs))
    (hposition : requestPosition uris a = requestPosition uris b) : [a, b].Sublist cs := by
  have hplaced := h.filter fun c => requestPosition uris c == requestPosition uris b
  rw [filter_position_inRequestOrder, List.filter_cons_of_pos (by simp [hposition]),
    List.filter_cons_of_pos (by simp), List.filter_nil] at hplaced
  exact hplaced.trans List.filter_sublist

end

/-- An answer has each uri once. It is in the order in which the uris of the request stand, and what none
of them names comes last; what the same uri names first is in the order in which it was found. -/
structure IsInRequestOrder (uris : List String) (found answer : List Content) : Prop where
  nodup : (answer.map uri).Nodup
  ordered : answer.Pairwise fun a b =>
    uris.findIdx a.described.isKnownAs ≤ uris.findIdx b.described.isKnownAs
  stable : answer.Pairwise fun a b =>
    uris.findIdx a.described.isKnownAs = uris.findIdx b.described.isKnownAs →
      [a.uri, b.uri].Sublist (found.map uri)

/-- Ordering what trimming leaves of what was found gives an answer in the order of the request. -/
theorem isInRequestOrder_inRequestOrder (uris : List String) {found results : List Content}
    (hnodup : (found.map uri).Nodup) (hresults : (results.map uri).Sublist (found.map uri)) :
    IsInRequestOrder uris found (inRequestOrder uris results) where
  nodup := ((List.mergeSort_perm results _).map uri).nodup_iff.2 (hresults.nodup hnodup)
  ordered := by
    simpa only [requestPosition_eq] using pairwise_inRequestOrder uris results
  stable := by
    refine List.pairwise_of_forall_sublist fun {a b} hab hposition => ?_
    rw [← requestPosition_eq, ← requestPosition_eq] at hposition
    exact ((sublist_of_inRequestOrder uris results hab hposition).map uri).trans hresults

namespace Discovery

/-- **Requests for the same uris.** Two requests for the same uris, in whatever order and however often
each, find the same and are answered with what trimming leaves of it, each in the order of its own uris. -/
theorem findByUris_same_uris (d : Discovery) (q : Query) {r : Repository} (hr : r.Reachable)
    {uris uris' : List String} (hsame : ∀ u, u ∈ uris ↔ u ∈ uris') :
    ∃ found answer answer',
      ((r.findByUris uris).2 = .ok found ∧ (r.findByUris uris').2 = .ok found) ∧
      ((d.findByUris uris q r).2 = .ok answer ∧ (d.findByUris uris' q r).2 = .ok answer') ∧
      (answer.Perm answer' ∧ answer.Perm ((d.restrict q).trim d.filterUriQueries found)) ∧
      IsInRequestOrder uris found answer ∧ IsInRequestOrder uris' found answer' := by
  obtain ⟨content, groups, hkeeps⟩ := hr.exists_keeps
  have hstore := hkeeps.findByUris_eq uris'
  have hanswer := findByUris_eq (d := d) (q := q) hkeeps uris'
  rw [← namedAmong_congr hsame, ← namedAmong_congr hsame] at hstore hanswer
  have hnodup := nodup_distinct [] (namedAmong uris content ++ namedAmong uris groups)
  have hresults := (d.restrict q).map_uri_trim_sublist d.filterUriQueries
    (Content.distinct [] (namedAmong uris content ++ namedAmong uris groups))
  refine ⟨_, _, _, ⟨hkeeps.findByUris_eq uris, hstore⟩, ⟨findByUris_eq hkeeps uris, hanswer⟩, ⟨?_, ?_⟩,
    isInRequestOrder_inRequestOrder uris hnodup hresults,
    isInRequestOrder_inRequestOrder uris' hnodup hresults⟩
  · exact (List.mergeSort_perm _ _).trans (List.mergeSort_perm _ _).symm
  · exact List.mergeSort_perm _ _

open Repository

/-- Two items in one order, for two requests that name them in the other and twice. -/
theorem findByUris_same_uris_oneAndTwo :
    (∀ u, u ∈ ["/two", "/one"] ↔ u ∈ ["/one", "/two", "/one"]) ∧
      ∃ answer answer',
        (({} : Discovery).findByUris ["/two", "/one"] {}
            (afterWriting [itemAt "/one" (some .bbc), itemAt "/two" (some .bbc)])).2 = .ok answer ∧
          (({} : Discovery).findByUris ["/one", "/two", "/one"] {}
            (afterWriting [itemAt "/one" (some .bbc), itemAt "/two" (some .bbc)])).2 = .ok answer' ∧
          (answer.Perm answer' ∧ answer.Perm [itemAt "/one" (some .bbc), itemAt "/two" (some .bbc)]) ∧
          IsInRequestOrder ["/two", "/one"] [itemAt "/one" (some .bbc), itemAt "/two" (some .bbc)] answer ∧
          IsInRequestOrder ["/one", "/two", "/one"]
            [itemAt "/one" (some .bbc), itemAt "/two" (some .bbc)] answer' := by
  have hsame : ∀ u, u ∈ ["/two", "/one"] ↔ u ∈ ["/one", "/two", "/one"] := by
    intro u
    simp only [List.mem_cons, List.not_mem_nil, or_false]
    tauto
  have hstore : ((afterWriting [itemAt "/one" (some .bbc), itemAt "/two" (some .bbc)]).findByUris
      ["/two", "/one"]).2 = .ok [itemAt "/one" (some .bbc), itemAt "/two" (some .bbc)] := rfl
  obtain ⟨found, answer, answer', ⟨hfound, -⟩, ⟨hanswer, hanswer'⟩, hperm, horder, horder'⟩ :=
    findByUris_same_uris {} {} (reachable_afterWriting [itemAt "/one" (some .bbc), itemAt "/two" (some .bbc)])
      hsame
  rw [hstore] at hfound
  cases hfound
  exact ⟨hsame, answer, answer', hanswer, hanswer', hperm, horder, horder'⟩

end Discovery

end MediaCatalogue
