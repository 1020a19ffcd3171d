import MediaCatalogue.Proofs.Repository.Fetching

/-!
# Whose content may be seen

A discovery can be limited to some publishers. The limit goes into every query, where it joins the
publishers that the query names, and so comes to stand in two places: in the filter document that
the store is asked with, and in what trimming admits. Both choose what these publishers have
published, and neither looks at anything else of it, so that a limited discovery answers with what an
unlimited one would answer, as far as it is theirs.
-/

set_option autoImplicit false

namespace MediaCatalogue

open Content

/-- Pruning leaves content with its publisher. -/
theorem TrimScope.isPublishedBy_pruned {s : TrimScope} {c : Content} {publishers : List Publisher} :
    (s.pruned c).IsPublishedBy publishers ↔ c.IsPublishedBy publishers := by
  unfold IsPublishedBy
  rw [publisher, s.described_pruned]
  rfl

namespace Discovery

/-- The discovery with other publishers for a limit, or without a limit. -/
def allowing (allowed : Option (List Publisher)) (d : Discovery) : Discovery :=
  { d with allowedPublishers := allowed }

/-! ## A limited query -/

section

variable (d : Discovery) (q : Query) (allowed : List Publisher)

/-- A discovery without a limit leaves a query as it is. -/
theorem restrict_allowing_none : (d.allowing none).restrict q = q := rfl

/-- What a limited query asks for is published by those that are allowed, as far as it names them. -/
theorem exists_restrict_allowing :
    ∃ ps, (d.allowing (some allowed)).restrict q = { q with publishers := some ps } ∧
      ∀ c, IsPublishedBy ps c ↔
        c.IsPublishedBy allowed ∧ ∀ named ∈ q.publishers, c.IsPublishedBy named := by
  unfold restrict allowing Query.withPublishers IsPublishedBy
  cases q.publishers with
  | none => exact ⟨_, rfl, by simp [Publisher.mem_inOrder]⟩
  | some named =>
    refine ⟨_, rfl, fun c => ?_⟩
    cases c.publisher <;> simp [Publisher.mem_inOrder, and_comm]

/-- A limited query admits what the query admits and the limit allows. -/
theorem admits_restrict_allowing (c : Content) :
    ((d.allowing (some allowed)).restrict q).Admits c ↔ q.Admits c ∧ c.IsPublishedBy allowed := by
  rw [admits_restrict_iff]
  simp [allowing]

/-- Trimming looks at the publishers of a result and at nothing else that they would change. -/
theorem trimmed?_restrict_allowing (remove : Bool) (c : Content) :
    ((d.allowing (some allowed)).restrict q).trimmed? remove c =
      if c.IsPublishedBy allowed then q.trimmed? remove c else none := by
  have hleaves : ((d.allowing (some allowed)).restrict q).Leaves remove c ↔
      q.Leaves remove c ∧ c.IsPublishedBy allowed := by
    unfold Query.Leaves
    rw [matchesNothing_restrict, ofQuery_restrict, admits_restrict_allowing]
    tauto
  rw [Query.trimmed?_eq, Query.trimmed?_eq, ofQuery_restrict]
  by_cases hpublished : c.IsPublishedBy allowed <;> simp [hleaves, hpublished]

/-- Trimming for a limited query leaves what the publishers have published of what trimming for the
query leaves. -/
theorem trim_restrict_allowing (remove : Bool) (cs : List Content) :
    ((d.allowing (some allowed)).restrict q).trim remove cs =
      (q.trim remove cs).filter fun c => c.IsPublishedBy allowed := by
  simp only [Query.trim_eq_filterMap, List.filter_filterMap]
  refine List.filterMap_congr fun c _ => ?_
  rw [trimmed?_restrict_allowing, Query.trimmed?_eq]
  by_cases hpublished : c.IsPublishedBy allowed <;> by_cases hleaves : q.Leaves remove c <;>
    simp [hpublished, hleaves, TrimScope.isPublishedBy_pruned, Option.filter]

/-- What others have published may be left out beforehand. -/
theorem trim_restrict_allowing_filter (remove : Bool) (cs : List Content) :
    ((d.allowing (some allowed)).restrict q).trim remove (cs.filter fun c => c.IsPublishedBy allowed) =
      ((d.allowing (some allowed)).restrict q).trim remove cs := by
  simp only [Query.trim_eq_filterMap, List.filterMap_filter]
  refine List.filterMap_congr fun c _ => ?_
  rw [trimmed?_restrict_allowing]
  by_cases hpublished : c.IsPublishedBy allowed <;> simp [hpublished]

end

/-! ## What a limited query fetches -/

variable {d : Discovery} {q : Query} {kept fetched : List Content}

/-- The filter document of a limited query asks for one of the publishers besides. -/
theorem exists_filter_restrict_allowing {f : Fields Value} (hf : filter q = .ok f)
    (hreadable : Filter.Readable f) (allowed : List Publisher) :
    ∃ f', filter ((d.allowing (some allowed)).restrict q) = .ok f' ∧ Filter.Readable f' ∧
      ∀ c : Content, Filter.Accepts f' c.toDocument.fields ↔
        Filter.Accepts f c.toDocument.fields ∧ c.IsPublishedBy allowed := by
  obtain ⟨ps, hrestrict, hps⟩ := d.exists_restrict_allowing q allowed
  cases hcompile : q.compile with
  | error e =>
    rw [filter, hcompile] at hf
    cases hf
  | ok document =>
    have hsorted := Query.sorted_of_compile hcompile
    have hfilter : filter { q with publishers := some ps } = .ok (restrictToPublishers ps document) := by
      have hsame : ({ q with publishers := some ps } : Query).compile = q.compile := rfl
      rw [filter, hsame, hcompile]
      rfl
    rw [hrestrict, hfilter]
    refine ⟨_, rfl, ?_⟩
    rw [filter, hcompile] at hf
    cases hpublishers : q.publishers with
    | none =>
      rw [hpublishers] at hf hps
      cases hf
      have hand : ∀ v, Fields.get? "$and" document = some v → ∃ clauses, v = .array clauses :=
        fun v hv => exists_clauses_of_readable hreadable hv
      refine ⟨(readable_restrictToPublishers hsorted hand ps).2 hreadable, fun c => ?_⟩
      rw [accepts_restrictToPublishers hsorted hand, c.entryAccepts_publisher, hps]
      simp
    | some named =>
      rw [hpublishers] at hf hps
      cases hf
      refine ⟨(readable_restrictToPublishers_iff hsorted named ps).1 hreadable, fun c => ?_⟩
      obtain ⟨rest, hrest⟩ := exists_accepts_restrictToPublishers hsorted c.toDocument.fields
      rw [hrest, hrest, c.entryAccepts_publisher, c.entryAccepts_publisher, hps]
      simp only [Option.mem_some_iff, forall_eq']
      tauto

/-- Of what a query fetches a limited one fetches what the publishers have published. -/
theorem Fetches.allowing (h : (d.allowing none).Fetches q kept fetched) (allowed : List Publisher) :
    (d.allowing (some allowed)).Fetches q kept (fetched.filter fun c => c.IsPublishedBy allowed) := by
  obtain ⟨f, g, hf, hg, rfl⟩ := h
  rw [restrict_allowing_none] at hf
  obtain ⟨f', hf', ⟨g', hg'⟩, haccepts⟩ := exists_filter_restrict_allowing hf ⟨g, hg⟩ allowed
  refine ⟨f', g', hf', hg', ?_⟩
  unfold matching
  rw [List.filter_filter]
  refine List.filter_congr fun c _ => ?_
  rw [Bool.eq_iff_iff, Bool.and_eq_true, decide_eq_true_iff, ← Filter.accepts_iff_isMatch hg,
    ← Filter.accepts_iff_isMatch hg', haccepts, and_comm]

/-! ## What a limited discovery answers -/

section

variable {allowed : List Publisher} {r : Repository}

/-- What a limited query leaves is published by those allowed, and by those that the query names. -/
theorem isPublishedBy_of_mem_trim {remove : Bool} {cs : List Content} {c : Content}
    (hc : c ∈ ((d.allowing (some allowed)).restrict q).trim remove cs) :
    c.IsPublishedBy allowed ∧ ∀ named ∈ q.publishers, c.IsPublishedBy named := by
  rw [trim_restrict_allowing, List.mem_filter, decide_eq_true_iff, Query.trim_eq_filterMap,
    List.mem_filterMap] at hc
  obtain ⟨⟨x, -, hx⟩, hpublished⟩ := hc
  rw [Query.trimmed?_eq] at hx
  split at hx
  · rename_i hleaves
    cases hx
    obtain ⟨p, hp, hnamed⟩ := (Query.admits_pruned q).2 hleaves.2.1
    exact ⟨hpublished, fun named hmem => ⟨p, hp, hnamed named hmem⟩⟩
  · cases hx

/-- A limited discovery answers with those answers of an unlimited one that are published by those
allowed. -/
theorem discover_allowing (hr : r.Reachable) (hselection : q.selection.restricts = false)
    {found : List Content} (h : ((d.allowing none).discover q r).2 = .ok found) :
    ((d.allowing (some allowed)).discover q r).2 =
      .ok (found.filter fun c => c.IsPublishedBy allowed) := by
  cases hnothing : q.matchesNothing with
  | true =>
    rw [discover, if_pos hnothing] at h ⊢
    cases h
    rfl
  | false =>
    obtain ⟨content, groups, hkeeps⟩ := hr.exists_keeps
    rw [discover_ok_iff hkeeps hnothing] at h ⊢
    obtain ⟨fetched, hfetched, hlimit, rfl⟩ := h
    rw [Selection.apply_of_not_restricts hselection] at hlimit ⊢
    refine ⟨_, hfetched.allowing allowed, ?_, ?_⟩
    · rw [Selection.apply_of_not_restricts hselection]
      exact (List.length_filter_le _ fetched).trans hlimit
    · rw [Selection.apply_of_not_restricts hselection, trim_restrict_allowing_filter,
        trim_restrict_allowing, restrict_allowing_none]

/-- **Limiting a discovery to publishers is choosing from its answers.** A query without a window,
and a request by uris, is answered with those of the results of the unlimited discovery that the
publishers have published, in the same order. So every result is published by one of them, and by one
of those that the query names. -/
theorem answers_allowing (d : Discovery) (q : Query) (r : Repository) (allowed : List Publisher)
    (hr : r.Reachable) :
    (q.selection.restricts = false → ∀ found, ((d.allowing none).discover q r).2 = .ok found →
        ((d.allowing (some allowed)).discover q r).2 =
          .ok (found.filter fun c => c.IsPublishedBy allowed)) ∧
      (∀ uris, ∃ found, ((d.allowing none).findByUris uris q r).2 = .ok found ∧
        ((d.allowing (some allowed)).findByUris uris q r).2 =
          .ok (found.filter fun c => c.IsPublishedBy allowed)) ∧
      ∀ found, (((d.allowing (some allowed)).discover q r).2 = .ok found ∨
          ∃ uris, ((d.allowing (some allowed)).findByUris uris q r).2 = .ok found) →
        ∀ c ∈ found, c.IsPublishedBy allowed ∧ ∀ named ∈ q.publishers, c.IsPublishedBy named := by
  obtain ⟨content, groups, hkeeps⟩ := hr.exists_keeps
  refine ⟨fun hselection found h => discover_allowing hr hselection h, ?_, ?_⟩
  · intro uris
    refine ⟨_, findByUris_eq hkeeps uris, ?_⟩
    rw [findByUris_eq hkeeps, trim_restrict_allowing, filter_inRequestOrder]
    rfl
  · rintro found (h | ⟨uris, h⟩) c hc
    · cases hnothing : q.matchesNothing with
      | true =>
        rw [discover, if_pos hnothing] at h
        cases h
        cases hc
      | false =>
        obtain ⟨fetched, -, -, rfl⟩ := (discover_ok_iff hkeeps hnothing).1 h
        exact isPublishedBy_of_mem_trim hc
    · rw [findByUris_eq hkeeps] at h
      cases h
      exact isPublishedBy_of_mem_trim (mem_inRequestOrder.1 hc)

end

open Repository

/-- Content of which the publisher is asked for by keys. -/
def publisherQuery (keys : List String) : Query :=
  { constraints :=
      [{ subject := { name := "publisher", field := "publisher", target := .content, valueKind := .string }
         operator := .equals
         operands := .strings keys }] }

/-- Items of two publishers and one of none. -/
def twoPublishers : Repository :=
  afterWriting [itemAt "/one" (some .bbc), itemAt "/two" (some .channel4), itemAt "/three"]

/-- The limit joins the condition that the query has on the publisher. -/
theorem answers_allowing_twoPublishers :
    ((({} : Discovery).allowing none).discover (publisherQuery ["bbc.co.uk", "channel4.com"])
          twoPublishers).2 = .ok [itemAt "/one" (some .bbc), itemAt "/two" (some .channel4)] ∧
      ((({} : Discovery).allowing (some [.channel4, .itv])).discover
          (publisherQuery ["bbc.co.uk", "channel4.com"]) twoPublishers).2 =
        .ok [itemAt "/two" (some .channel4)] := by
  have hcompile : (publisherQuery ["bbc.co.uk", "channel4.com"]).compile =
      .ok [("publisher", operatorValue "$in"
        (.array [.string "bbc.co.uk", .string "channel4.com"]))] := by
    rw [Query.compile_eq rfl rfl]
    rfl
  have hanswer : ((({} : Discovery).allowing none).discover
      (publisherQuery ["bbc.co.uk", "channel4.com"]) twoPublishers).2 =
        .ok [itemAt "/one" (some .bbc), itemAt "/two" (some .channel4)] := by
    have hunlimited : ({} : Discovery).allowing none = {} := rfl
    rw [hunlimited, discover_eq hcompile (filter_restrict_of_none hcompile rfl) rfl]
    rfl
  refine ⟨hanswer, ?_⟩
  have hreachable : twoPublishers.Reachable := reachable_afterWriting _
  obtain ⟨hdiscover, -⟩ := answers_allowing {} (publisherQuery ["bbc.co.uk", "channel4.com"])
    twoPublishers [.channel4, .itv] hreachable
  exact hdiscover rfl _ hanswer

end Discovery

end MediaCatalogue
