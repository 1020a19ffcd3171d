import MediaCatalogue.Proofs.Repository.Discovery

/-!
# Windows on what a query finds

The window of a query is laid on the documents that match its filter document, and what is seen
through it is trimmed. Trimming looks at one piece of content at a time, so the answer is an unbroken
run of the answer without a window. It is what the window shows of that answer as long as trimming
takes away nothing up to its end.
-/

set_option autoImplicit false

namespace MediaCatalogue

/-- Cutting a list and choosing from it are done in either order, if everything up to the cut is
chosen. -/
theorem filterMap_cut {α β : Type} {f : α → Option β} {k : Nat} {as : List α}
    (h : ∀ a ∈ as.take k, f a ≠ none) :
    (as.filterMap f).take k = (as.take k).filterMap f ∧
      (as.filterMap f).drop k = (as.drop k).filterMap f := by
  induction as generalizing k with
  | nil => simp
  | cons a as ih =>
    cases k with
    | zero => simp
    | succ k =>
      rw [List.take_succ_cons, List.forall_mem_cons] at h
      obtain ⟨b, hb⟩ := Option.ne_none_iff_exists'.1 h.1
      obtain ⟨htake, hdrop⟩ := ih h.2
      rw [List.filterMap_cons_some hb, List.take_succ_cons, List.take_succ_cons, List.drop_succ_cons,
        List.drop_succ_cons, List.filterMap_cons_some hb, htake, hdrop]
      exact ⟨rfl, rfl⟩

namespace Selection

variable {α β : Type} (s : Selection)

/-- What a window shows is an unbroken run, which begins after what is skipped. -/
theorem exists_append_apply (results : List α) :
    ∃ after, results = results.take s.offset ++ s.apply results ++ after := by
  cases hlimit : s.limit with
  | none => exact ⟨[], by simp [apply, hlimit]⟩
  | some n =>
    refine ⟨(results.drop s.offset).drop n, ?_⟩
    simp only [apply, hlimit]
    rw [List.append_assoc, List.take_append_drop, List.take_append_drop]

/-- A window shows of what is made of results what is made of those that it shows. -/
theorem map_apply (f : α → β) (results : List α) :
    (s.apply results).map f = s.apply (results.map f) := by
  cases hlimit : s.limit <;> simp [apply, hlimit, List.map_take, List.map_drop]

/-- A window shows the same before and after choosing, if everything up to its end is chosen. -/
theorem apply_filterMap {f : α → Option β} {results : List α}
    (h : ∀ a ∈ results.take s.offset ++ s.apply results, f a ≠ none) :
    s.apply (results.filterMap f) = (s.apply results).filterMap f := by
  rw [List.forall_mem_append] at h
  obtain ⟨-, hdrop⟩ := filterMap_cut h.1
  cases hlimit : s.limit with
  | none => simp only [apply, hlimit, hdrop]
  | some n =>
    have hend : ∀ a ∈ (results.drop s.offset).take n, f a ≠ none := by
      simpa only [apply, hlimit] using h.2
    simp only [apply, hlimit, hdrop, (filterMap_cut hend).1]

end Selection

/-- Documents that are read one by one are read as that content. -/
theorem Content.map_ofDocument_of_forall₂ {ds : List Document} {cs : List Content}
    (h : List.Forall₂ (fun d c => ofDocument d = .ok c) ds cs) : ds.map ofDocument = cs.map .ok := by
  induction h with
  | nil => rfl
  | cons hread _ ih => rw [List.map_cons, List.map_cons, hread, ih]

namespace Discovery

/-- The content of the documents that match the filter document of a query, in order; none if the
query matches nothing. -/
def Matched (d : Discovery) (q : Query) (r : Repository) (matched : List Content) : Prop :=
  if q.matchesNothing then matched = []
  else ∃ f g, filter (d.restrict q) = .ok f ∧ Filter.ofFields f = .ok g ∧
    (r.content.documents.filter fun x => g.isMatch x.fields).map Content.ofDocument = matched.map .ok

variable {d : Discovery} {q : Query} {s : Selection} {r : Repository} {found : List Content}

/-- Nothing but the documents that are looked at depends on the window. -/
theorem exists_of_discover_selection (hnothing : q.matchesNothing = false)
    (h : (d.discover { q with selection := s } r).2 = .ok found) :
    ∃ f g cs, filter (d.restrict q) = .ok f ∧ Filter.ofFields f = .ok g ∧
      (s.apply (r.content.documents.filter fun x => g.isMatch x.fields)).map Content.ofDocument =
        cs.map .ok ∧
      found = (d.restrict q).trim true cs := by
  have hrestrict : d.restrict { q with selection := s } = { d.restrict q with selection := s } := by
    rcases q with ⟨constraints, _ | publishers, selection, matchesNothing⟩ <;> unfold restrict <;>
      cases d.allowedPublishers <;> rfl
  obtain ⟨f, g, cs, hf, hg, hcs, rfl⟩ :=
    exists_of_discover_ok (q := { q with selection := s }) hnothing h
  have hread := Content.map_ofDocument_of_forall₂ (Content.forall₂_of_ofDocumentsUpTo hcs)
  rw [hrestrict] at hf ⊢
  exact ⟨f, g, cs, hf, hg, hread, rfl⟩

/-- An answer without a window comes from content that matches. -/
theorem exists_matched (h : (d.discover { q with selection := {} } r).2 = .ok found) :
    ∃ matched, d.Matched q r matched := by
  unfold Matched
  cases hnothing : q.matchesNothing with
  | true => exact ⟨[], rfl⟩
  | false =>
    obtain ⟨f, g, cs, hf, hg, hcs, -⟩ := exists_of_discover_selection hnothing h
    exact ⟨cs, f, g, hf, hg, hcs⟩

/-- Every answer is what trimming leaves of what its window shows of the matching content. -/
theorem Matched.eq_trim_apply {matched : List Content} (hmatched : d.Matched q r matched)
    (h : (d.discover { q with selection := s } r).2 = .ok found) :
    found = (d.restrict q).trim true (s.apply matched) := by
  unfold Matched at hmatched
  split at hmatched
  · rename_i hnothing
    rw [discover, if_pos hnothing] at h
    cases h
    rw [Query.trim, d.matchesNothing_restrict, if_pos hnothing]
  · rename_i hnothing
    obtain ⟨f, g, hf, hg, hread⟩ := hmatched
    obtain ⟨f', g', cs, hf', hg', hcs, rfl⟩ := exists_of_discover_selection (by simpa using hnothing) h
    cases hf.symm.trans hf'
    cases hg.symm.trans hg'
    rw [s.map_apply, hread, ← s.map_apply] at hcs
    rw [List.map_injective_iff.2 (fun _ _ => Except.ok.inj) hcs]

/-- **What a window shows of an answer.** The window of a query is laid on the content that matches
its filter document, and what it shows is trimmed. So the answer is an unbroken run of the answer
without a window, after what trimming leaves of the content that is skipped; and it is what the
window shows of that answer if trimming takes away nothing up to the end of the window. -/
theorem discover_selection (d : Discovery) (q : Query) (s : Selection) (r : Repository)
    {all page : List Content} (hall : (d.discover { q with selection := {} } r).2 = .ok all)
    (hpage : (d.discover { q with selection := s } r).2 = .ok page) :
    ∃ matched after, d.Matched q r matched ∧
      matched = matched.take s.offset ++ s.apply matched ++ after ∧
      page = (d.restrict q).trim true (s.apply matched) ∧
      all = (d.restrict q).trim true (matched.take s.offset) ++ page ++
        (d.restrict q).trim true after ∧
      ((∀ c ∈ matched.take s.offset ++ s.apply matched, (d.restrict q).trim true [c] ≠ []) →
        page = s.apply all) := by
  obtain ⟨matched, hmatched⟩ := exists_matched hall
  have hwhole : all = (d.restrict q).trim true matched := hmatched.eq_trim_apply hall
  have hshown : page = (d.restrict q).trim true (s.apply matched) := hmatched.eq_trim_apply hpage
  obtain ⟨after, hafter⟩ := s.exists_append_apply matched
  refine ⟨matched, after, hmatched, hafter, hshown, ?_, ?_⟩
  · calc
      all = (d.restrict q).trim true (matched.take s.offset ++ s.apply matched ++ after) := by
        rw [← hafter, hwhole]
      _ = (d.restrict q).trim true (matched.take s.offset) ++ page ++ (d.restrict q).trim true after := by
        rw [Query.trim_append, Query.trim_append, hshown]
  · intro hkept
    have hchosen : ∀ c ∈ matched.take s.offset ++ s.apply matched,
        (d.restrict q).trimmed? true c ≠ none := by
      intro c hc hnone
      exact hkept c hc (by simp [Query.trim_eq_filterMap, hnone])
    rw [hshown, hwhole, Query.trim_eq_filterMap, Query.trim_eq_filterMap, s.apply_filterMap hchosen]

open Repository

/-- An item without a publisher in front of two others. -/
def hiddenFirst : Repository :=
  afterWriting [itemAt "/hidden", itemAt "/one" (some .bbc), itemAt "/two" (some .bbc)]

/-- Without a window both items with a publisher are found, with one of two places only the first. -/
theorem discover_hiddenFirst :
    (({} : Discovery).discover { selection := {} } hiddenFirst).2 =
        .ok [itemAt "/one" (some .bbc), itemAt "/two" (some .bbc)] ∧
      (({} : Discovery).discover { selection := { limit := some 2 } } hiddenFirst).2 =
        .ok [itemAt "/one" (some .bbc)] := by
  have hcompile : ∀ s : Selection, ({ selection := s } : Query).compile = .ok [] := by
    intro s
    rw [Query.compile_eq rfl rfl]
    rfl
  constructor <;>
  · rw [discover_eq (hcompile _) (filter_restrict_of_none (hcompile _) rfl) rfl]
    rfl

/-- The item without a publisher takes the first place in the window, so one of the others is shown. -/
theorem discover_selection_hiddenFirst :
    ((({} : Discovery).discover { selection := {} } hiddenFirst).2 =
        .ok [itemAt "/one" (some .bbc), itemAt "/two" (some .bbc)] ∧
      (({} : Discovery).discover { selection := { limit := some 2 } } hiddenFirst).2 =
        .ok [itemAt "/one" (some .bbc)]) ∧
      ∃ matched after, ({} : Discovery).Matched {} hiddenFirst matched ∧
        matched = matched.take 2 ++ after ∧
        [itemAt "/one" (some .bbc)] = ({} : Query).trim true (matched.take 2) ∧
        [itemAt "/one" (some .bbc), itemAt "/two" (some .bbc)] =
          [itemAt "/one" (some .bbc)] ++ ({} : Query).trim true after := by
  obtain ⟨hall, hpage⟩ := discover_hiddenFirst
  obtain ⟨matched, after, hmatched, hsplit, hshown, hrun, -⟩ :=
    discover_selection {} {} { limit := some 2 } hiddenFirst hall hpage
  exact ⟨⟨hall, hpage⟩, matched, after, hmatched, hsplit, hshown, hrun⟩

/-- A limit of two shows one item, though there are two. -/
theorem discover_selection_ne_apply :
    hiddenFirst.Reachable ∧
      (({} : Discovery).discover { selection := {} } hiddenFirst).2 =
        .ok [itemAt "/one" (some .bbc), itemAt "/two" (some .bbc)] ∧
      (({} : Discovery).discover { selection := { limit := some 2 } } hiddenFirst).2 =
        .ok [itemAt "/one" (some .bbc)] ∧
      [itemAt "/one" (some .bbc)] ≠
        ({ limit := some 2 } : Selection).apply
          [itemAt "/one" (some .bbc), itemAt "/two" (some .bbc)] := by
  obtain ⟨hall, hpage⟩ := discover_hiddenFirst
  refine ⟨reachable_afterWriting _, hall, hpage, fun h => ?_⟩
  cases congrArg List.length h

end Discovery

end MediaCatalogue
