import MediaCatalogue.Proofs.Query.Meaning
import MediaCatalogue.Proofs.Repository.Reading
import MediaCatalogue.Proofs.Repository.Restriction
import MediaCatalogue.Proofs.Repository.Writing

/-!
# What a query finds

A query is answered in two steps that know nothing of each other: the store looks for documents that
match a filter document, and what is found is read and trimmed. The idea is to follow one stored
document through both. When trimming its item would leave a value, the document passes the filter
document, so the answer has the item with that value; nothing is lost on the way.
-/

set_option autoImplicit false

namespace MediaCatalogue

/-! ## The filter document of a query with its publishers -/

/-- The content has a publisher, and it is one of those named. -/
def Content.IsPublishedBy (publishers : List Publisher) (c : Content) : Prop :=
  ∃ p ∈ c.publisher, p ∈ publishers

instance (publishers : List Publisher) : DecidablePred (Content.IsPublishedBy publishers) :=
  fun c => inferInstanceAs (Decidable (∃ p ∈ c.publisher, p ∈ publishers))

/-- The document of content holds the key of its publisher. -/
theorem Content.get?_publisher (c : Content) :
    Fields.get? "publisher" c.toDocument.fields =
      c.publisher.map fun p => .string (Vocabulary.key p) := by
  have hpublisher : c.publisher = c.described.publisher := rfl
  rw [c.get?_toDocument (by decide), hpublisher]
  cases c <;>
    refine (Record.get?_ofEntries "publisher" (by simp [Described.toEntries])).trans ?_ <;>
    simp [Described.toEntries, Fields.get?, described, keyValue_eq]

/-- A document of content has a publisher of the right ones when the content has. -/
theorem Content.entryAccepts_publisher (c : Content) (publishers : List Publisher) :
    Filter.EntryAccepts "publisher" (publisherCondition publishers) c.toDocument.fields ↔
      c.IsPublishedBy publishers := by
  have hpath : pathSegments "publisher" = ["publisher"] := by decide
  have hkey : ∀ p q : Publisher, Vocabulary.key p = Vocabulary.key q ↔ p = q := by
    intro p q
    have hback := Vocabulary.isLawful_publisher p
    constructor
    · intro heq
      rw [heq, Vocabulary.isLawful_publisher q] at hback
      exact (Option.some.inj hback).symm
    · exact congrArg _
  rw [entryAccepts_publisherCondition, Record.resolve_name hpath, c.get?_publisher, IsPublishedBy]
  cases c.publisher with
  | none => simp [Value.leaves]
  | some p => simp [Value.leaves, hkey, Value.array?]

namespace Discovery

/-- Restricting a query changes its publishers only. -/
theorem restrict_eq (d : Discovery) (q : Query) :
    ∃ publishers, d.restrict q = { q with publishers := publishers } := by
  unfold restrict Query.withPublishers
  split
  · exact ⟨_, rfl⟩
  · split <;> exact ⟨_, rfl⟩

/-- A restricted query compiles to the same filter document. -/
theorem compile_restrict (d : Discovery) (q : Query) : (d.restrict q).compile = q.compile := by
  obtain ⟨publishers, h⟩ := d.restrict_eq q
  rw [h]
  rfl

/-- A restricted query trims by the same constraints. -/
theorem ofQuery_restrict (d : Discovery) (q : Query) :
    TrimScope.ofQuery (d.restrict q) = TrimScope.ofQuery q := by
  obtain ⟨publishers, h⟩ := d.restrict_eq q
  rw [h]
  rfl

/-- A restricted query has the same window. -/
theorem selection_restrict (d : Discovery) (q : Query) : (d.restrict q).selection = q.selection := by
  obtain ⟨publishers, h⟩ := d.restrict_eq q
  rw [h]

/-- A restricted query is known to match nothing when the query is. -/
theorem matchesNothing_restrict (d : Discovery) (q : Query) :
    (d.restrict q).matchesNothing = q.matchesNothing := by
  obtain ⟨publishers, h⟩ := d.restrict_eq q
  rw [h]

/-- With its publishers the filter document of a query asks for one of them besides. -/
theorem filter_spec {q : Query} {document : Fields Value} (hcompile : q.compile = .ok document)
    (hplain : IsPlainFilter document) :
    ∃ f, filter q = .ok f ∧ (Filter.Readable f ↔ Filter.Readable document) ∧
      ∀ x, Filter.Accepts f x ↔ Filter.Accepts document x ∧
        ∀ ps ∈ q.publishers, Filter.EntryAccepts "publisher" (publisherCondition ps) x := by
  have hand : ∀ v, Fields.get? "$and" document = some v → ∃ clauses, v = .array clauses := by
    intro v hv
    rw [hplain.get?_eq_none (by decide)] at hv
    cases hv
  rw [filter, hcompile]
  cases q.publishers with
  | none => exact ⟨document, rfl, Iff.rfl, fun x => by simp⟩
  | some ps =>
    exact ⟨_, rfl, readable_restrictToPublishers hplain.sorted hand ps, fun x => by
      simp [accepts_restrictToPublishers hplain.sorted hand ps x]⟩

/-- Without publishers on either side the store is asked with the compiled query. -/
theorem filter_restrict_of_none {q : Query} {document : Fields Value}
    (hcompile : q.compile = .ok document) (hpublishers : q.publishers = none) :
    filter (restrict {} q) = .ok document := by
  have hrestrict : restrict {} q = q := rfl
  rw [hrestrict, filter, hcompile, hpublishers]
  rfl

/-- A query that is not known to match nothing is answered in two steps: the store is asked with its
filter document, and what the store gives is trimmed. -/
theorem discover_steps {d : Discovery} {q : Query} (hnothing : q.matchesNothing = false) (r : Repository) :
    (d.discover q r).2 =
      match filter (d.restrict q) with
      | .error e => .error (.query e)
      | .ok f =>
        match (r.discover d.maxResults f q.selection).2 with
        | .error e => .error (.repository e)
        | .ok cs => .ok ((d.restrict q).trim true cs) := by
  rw [discover, if_neg (by simp [hnothing]), ← d.selection_restrict q]
  dsimp only
  cases filter (d.restrict q) with
  | error e => rfl
  | ok f =>
    dsimp only
    obtain ⟨r', found⟩ := r.discover d.maxResults f (d.restrict q).selection
    cases found <;> rfl

/-- A query that can be compiled and looked for is answered with what is found and read, trimmed. -/
theorem discover_eq {d : Discovery} {q : Query} {document f : Fields Value} {g : Filter}
    (hcompile : q.compile = .ok document) (hf : filter (d.restrict q) = .ok f)
    (hg : Filter.ofFields f = .ok g) (r : Repository) :
    (d.discover q r).2 =
      match Content.ofDocumentsUpTo d.maxResults 0
        (q.selection.apply (r.content.documents.filter fun x => g.isMatch x.fields)) with
      | .error e => .error (.repository e)
      | .ok cs => .ok ((d.restrict q).trim true cs) := by
  rw [discover_steps (Query.matchesNothing_of_compile hcompile), hf]
  dsimp only
  rw [Repository.discover_eq hg]

/-- An answer is what was found and read, trimmed. -/
theorem exists_of_discover_ok {d : Discovery} {q : Query} (hnothing : q.matchesNothing = false)
    {r : Repository} {found : List Content} (h : (d.discover q r).2 = .ok found) :
    ∃ f g cs, filter (d.restrict q) = .ok f ∧ Filter.ofFields f = .ok g ∧
      Content.ofDocumentsUpTo d.maxResults 0
          (q.selection.apply (r.content.documents.filter fun x => g.isMatch x.fields)) = .ok cs ∧
      found = (d.restrict q).trim true cs := by
  rw [discover_steps hnothing] at h
  split at h
  · cases h
  · rename_i f hf
    split at h <;> cases h
    rename_i cs hstore
    cases hg : Filter.ofFields f with
    | error e =>
      rw [Repository.discover_of_error hg] at hstore
      cases hstore
    | ok g =>
      rw [Repository.discover_eq hg] at hstore
      exact ⟨f, g, cs, hf, hg, hstore, rfl⟩

end Discovery

/-! ## What trimming would keep -/

namespace Query

variable {q : Query}

/-- Without soft constraints the scope of a query has all constraints that restrict something, as hard
ones. -/
theorem ofQuery_of_hard (hhard : ∀ k ∈ q.constraints, k.soft = false) :
    TrimScope.ofQuery q = ⟨q.contributing, []⟩ := by
  have hsoft : ∀ k ∈ q.contributing, k.soft = false := fun k hk =>
    hhard k (mem_constraints_of_contributing hk)
  have hall : q.contributing.filter (fun k => !k.soft) = q.contributing :=
    List.filter_eq_self.2 fun k hk => by simp [hsoft k hk]
  have hnone : q.contributing.filter (fun k => k.soft) = [] :=
    List.filter_eq_nil_iff.2 fun k hk => by simp [hsoft k hk]
  rw [TrimScope.ofQuery, ← contributing, hall, hnone]

/-- What is good for a scope with all constraints satisfies those at each place. -/
theorem satisfies_of_good {s : TrimScope} (hs : s.hard = q.contributing) {α : Type} [Queryable α] {e : α}
    (he : s.Good e) (path : EntityPath) : satisfies (q.constraintsAt path) e = true := by
  rw [TrimScope.satisfies_iff]
  intro k hk haddressed
  have hmem : k ∈ s.hard := hs ▸ (mem_constraintsAt.1 hk).1
  exact he k (List.mem_append_left _ hmem) haddressed

/-- A scope with all constraints is about the kinds at each place that has constraints. -/
theorem isAbout_of_constraintsAt {s : TrimScope} (hs : s.hard = q.contributing) {path : EntityPath}
    {kinds : List EntityKind} (hkinds : ∀ t, EntityPath.ofKind? t = some path → t ∈ kinds)
    (h : q.constraintsAt path ≠ []) : s.IsAbout kinds := by
  obtain ⟨k, hk⟩ := List.exists_mem_of_ne_nil _ h
  obtain ⟨hmem, hpath⟩ := mem_constraintsAt.1 hk
  exact ⟨k, hs ▸ hmem, hkinds _ hpath⟩

/-- Something is asked for at a place exactly when there are constraints. -/
theorem isSome_needAt_iff {path : EntityPath} {α : Type} [Queryable α] :
    (q.needAt path : Option (α → Prop)).isSome = true ↔ q.constraintsAt path ≠ [] := by
  simp [needAt]

/-- What is asked for at a place is that its constraints are satisfied. -/
theorem exists_of_needAt {path : EntityPath} {α : Type} [Queryable α] {P : α → Prop}
    (hP : P ∈ q.needAt path) :
    q.constraintsAt path ≠ [] ∧ P = fun e => satisfies (q.constraintsAt path) e = true := by
  unfold needAt at hP
  split at hP
  · cases hP
  · rename_i hne
    cases hP
    exact ⟨hne, rfl⟩

section

variable {s : TrimScope} (hs : s.hard = q.contributing)

include hs

/-- An encoding that is kept has a location that is asked for. -/
theorem locationIn_of_keeps {e : Encoding} (he : s.KeepsEncoding e) : q.needs.LocationIn e := by
  intro L hL
  obtain ⟨hne, rfl⟩ := exists_of_needAt hL
  have habout : s.IsAbout [.location, .policy] :=
    isAbout_of_constraintsAt hs (by intro t; cases t <;> decide) hne
  rcases he.2 with ⟨l, hl, hgood⟩ | ⟨-, hnot⟩
  · exact ⟨l, hl, satisfies_of_good hs hgood .locations⟩
  · exact absurd habout hnot

/-- A version that is kept has what is asked for beneath it. -/
theorem encodingIn_of_keeps {v : Version} (hv : s.KeepsVersion v) : q.needs.EncodingIn v := by
  intro hasked
  have habout : s.IsAbout [.encoding, .location, .policy] := by
    rcases hasked with h | h
    · exact isAbout_of_constraintsAt hs (by intro t; cases t <;> decide) (isSome_needAt_iff.1 h)
    · exact isAbout_of_constraintsAt hs (by intro t; cases t <;> decide) (isSome_needAt_iff.1 h)
  rcases hv.2.2 with ⟨e, he, hkept⟩ | ⟨-, hnot⟩
  · refine ⟨e, he, fun E hE => ?_, locationIn_of_keeps hs hkept⟩
    obtain ⟨-, rfl⟩ := exists_of_needAt hE
    exact satisfies_of_good hs hkept.1 .encodings
  · exact absurd habout hnot

/-- A version that is kept has a broadcast that is asked for. -/
theorem broadcastIn_of_keeps {v : Version} (hv : s.KeepsVersion v) : q.needs.BroadcastIn v := by
  intro B hB
  obtain ⟨hne, rfl⟩ := exists_of_needAt hB
  have habout : s.IsAbout [.broadcast] :=
    isAbout_of_constraintsAt hs (by intro t; cases t <;> decide) hne
  rcases hv.2.1 with ⟨b, hb, hgood⟩ | ⟨-, hnot⟩
  · exact ⟨b, hb, satisfies_of_good hs hgood .broadcasts⟩
  · exact absurd habout hnot

/-- Where versions have a value for trimming, what the query asks for is found in them. -/
theorem foundIn_of_keeps {vs : List Version} (hvs : s.KeepsVersions vs) : q.needs.FoundIn vs := by
  rcases hvs with ⟨v, hv, hkept⟩ | ⟨-, hnot⟩
  · have hbroadcast := broadcastIn_of_keeps hs hkept
    have hencoding := encodingIn_of_keeps hs hkept
    unfold Needs.FoundIn
    split
    · rename_i V hV
      obtain ⟨-, rfl⟩ := exists_of_needAt hV
      exact ⟨v, hv, satisfies_of_good hs hkept.1 .versions, hbroadcast, hencoding⟩
    · exact ⟨fun _ => ⟨v, hv, hbroadcast⟩, fun _ => ⟨v, hv, hencoding⟩⟩
  · -- no constraint is about anything nested
    have hkinds : ∀ path t, path ≠ EntityPath.root → EntityPath.ofKind? t = some path →
        t ∈ [EntityKind.version, .broadcast, .encoding, .location, .policy] := by
      intro path t
      cases path <;> cases t <;> decide
    have hnil : ∀ path, path ≠ EntityPath.root → q.constraintsAt path = [] := fun path hpath =>
      Classical.not_not.1 fun hne =>
        hnot (isAbout_of_constraintsAt hs (fun t => hkinds path t hpath) hne)
    have hneeds : q.needs = ⟨none, none, none, none⟩ := by
      simp [needs, needAt, hnil]
    rw [hneeds]
    simp [Needs.FoundIn]

end

end Query

/-! ## What trimming would keep is found -/

/-- A window that does not restrict shows all results. -/
theorem Selection.apply_of_not_restricts {s : Selection} (h : s.restricts = false) {α : Type}
    (results : List α) : s.apply results = results := by
  simp only [restricts, Bool.or_eq_false_iff, decide_eq_false_iff_not, Nat.not_lt, Nat.le_zero_eq,
    Option.isSome_eq_false_iff, Option.isNone_iff_eq_none] at h
  rw [apply, h.1, h.2, List.drop_zero]

/-- Putting publishers in order neither adds nor drops one. -/
theorem Publisher.mem_inOrder {p : Publisher} {ps : List Publisher} : p ∈ inOrder ps ↔ p ∈ ps := by
  have hall : p ∈ (Vocabulary.all : List Publisher) := by cases p <;> decide
  simp [inOrder, hall]

namespace Discovery

/-- The publishers that are left are those that the query and the discovery both allow. -/
theorem admits_restrict_iff {d : Discovery} {q : Query} {c : Content} :
    (d.restrict q).Admits c ↔
      q.Admits c ∧ ∀ allowed ∈ d.allowedPublishers, c.IsPublishedBy allowed := by
  unfold restrict Query.withPublishers Query.Admits Content.IsPublishedBy
  cases c.publisher with
  | none => simp
  | some p =>
    cases d.allowedPublishers with
    | none => simp
    | some allowed => cases q.publishers <;> simp [Publisher.mem_inOrder]

/-- Content that the query admits and the discovery allows is admitted by the restricted query. -/
theorem admits_restrict {d : Discovery} {q : Query} {c : Content} (hq : q.Admits c)
    (hd : ∀ allowed ∈ d.allowedPublishers, ∃ p ∈ c.publisher, p ∈ allowed) :
    (d.restrict q).Admits c :=
  admits_restrict_iff.2 ⟨hq, hd⟩

/-- No more documents match a query than may be answered. -/
def IsWithinLimit (d : Discovery) (q : Query) (r : Repository) : Prop :=
  ∀ f matched, filter (d.restrict q) = .ok f → (r.content.find f {}).2 = .ok matched →
    matched.length ≤ d.maxResults

/-- A limit that holds of all documents holds of those that match. -/
theorem isWithinLimit_of_length {d : Discovery} {r : Repository}
    (h : r.content.documents.length ≤ d.maxResults) (q : Query) : d.IsWithinLimit q r := by
  intro f matched _ hmatched
  unfold Collection.find at hmatched
  split at hmatched
  · cases hmatched
  · cases hmatched
    exact (List.length_filter_le _ _).trans h

section

variable {d : Discovery} {q : Query} {r : Repository}

/-- The answer to a query is trimmed from some of the stored content, among which is all that the
query describes, with a publisher that is allowed. -/
theorem exists_discover_eq (hr : r.Reachable) (hknown : ∀ k ∈ q.constraints, k.subject ∈ Attribute.all)
    (hbeginning : ∀ k ∈ q.constraints, k.operator ≠ .beginning)
    (hcompiles : ∃ document, q.compile = .ok document)
    (hselection : q.selection.restricts = false) (hlimit : d.IsWithinLimit q r) :
    ∃ cs, (d.discover q r).2 = .ok ((d.restrict q).trim true cs) ∧
      ∀ x ∈ r.content.documents, ∀ c, Content.ofDocument x = .ok c → q.Describes c →
        (∀ k ∈ q.constraintsAt .root, k.addresses c = true) → (d.restrict q).Admits c → c ∈ cs := by
  obtain ⟨document, hcompile⟩ := hcompiles
  -- the filter document that the store is asked with can be read
  obtain ⟨ds, h, hdocument⟩ := Query.compile_spec hcompile hknown
  obtain ⟨f, hf, hreadable, haccepts⟩ := filter_spec ((d.compile_restrict q).trans hcompile)
    (Query.isPlainFilter_of_compile hcompile hknown)
  obtain ⟨g, hg⟩ := hreadable.2 (hdocument ▸ h.readable_assemble hbeginning)
  -- what is found can be read, and is not too much
  have hcount := hlimit f (r.content.documents.filter fun x => g.isMatch x.fields) hf (by
    simp [Collection.find, hg, Selection.apply])
  obtain ⟨cs, hread⟩ : ∃ cs, List.Forall₂ (fun x c => Content.ofDocument x = .ok c)
      (r.content.documents.filter fun x => g.isMatch x.fields) cs := by
    refine exists_forall₂_iff.2 fun y hy => ?_
    obtain ⟨c, -, hy⟩ := hr.isSorted.content y (List.mem_of_mem_filter hy)
    exact ⟨c, Content.ofDocument_eq hy⟩
  have hcs : Content.ofDocumentsUpTo d.maxResults 0
      (r.content.documents.filter fun x => g.isMatch x.fields) = .ok cs :=
    Content.ofDocumentsUpTo_of_length_le hread (by omega)
  refine ⟨cs, ?_, ?_⟩
  · rw [discover_eq hcompile hf hg, Selection.apply_of_not_restricts hselection, hcs]
  · intro x hx c hc hdescribes haddressed hadmits
    have hfields : x.fields = c.toDocument.fields := by
      obtain ⟨c', -, hfields⟩ := hr.isSorted.content x hx
      rw [Content.ofDocument_eq hfields] at hc
      exact Except.ok.inj hc ▸ hfields
    have hmatch : g.isMatch x.fields = true := by
      rw [← Filter.accepts_iff_isMatch hg, hfields, haccepts, hdocument]
      refine ⟨h.accepts_of_describes hbeginning hdescribes haddressed, fun ps hps => ?_⟩
      obtain ⟨p, hp, hmem⟩ := hadmits
      exact (c.entryAccepts_publisher ps).2 ⟨p, hp, hmem ps hps⟩
    obtain ⟨c', hc', hsame⟩ := exists_right_of_forall₂ hread (List.mem_filter.2 ⟨hx, hmatch⟩)
    rw [hc] at hsame
    cases hsame
    exact hc'

end

/-- **Nothing is lost that trimming would keep.** An item that satisfies the constraints at the root
and in whose versions trimming leaves a value is in the answer, with that value for its versions;
several constraints may meet on a field. -/
theorem mem_discover_of_versions (d : Discovery) (q : Query) (r : Repository) (hr : r.Reachable)
    (hknown : ∀ k ∈ q.constraints, k.subject ∈ Attribute.all)
    (hhard : ∀ k ∈ q.constraints, k.soft = false)
    (hbeginning : ∀ k ∈ q.constraints, k.operator ≠ .beginning)
    (hcompiles : ∃ document, q.compile = .ok document)
    (hselection : q.selection.restricts = false) (hlimit : d.IsWithinLimit q r)
    (x : Document) (hx : x ∈ r.content.documents) (i : Item)
    (hi : Content.ofDocument x = .ok (.item i))
    (haddressed : ∀ k ∈ q.constraintsAt .root, k.addresses (Content.item i) = true)
    (hroot : satisfies (q.constraintsAt .root) (Content.item i) = true)
    (hpublisher : q.Admits (.item i))
    (hallowed : ∀ allowed ∈ d.allowedPublishers, ∃ p ∈ i.described.publisher, p ∈ allowed)
    (vs : List Version) (hvs : (TrimScope.ofQuery q).versions i.versions = some vs) :
    ∃ found, (d.discover q r).2 = .ok found ∧ .item { i with versions := vs } ∈ found := by
  have hadmits : (d.restrict q).Admits (.item i) := admits_restrict hpublisher hallowed
  have hkeeps : (TrimScope.ofQuery q).KeepsVersions i.versions := by
    rw [TrimScope.versions_eq] at hvs
    split at hvs
    · assumption
    · cases hvs
  have hdescribes : q.Describes (.item i) :=
    ⟨hroot, Query.foundIn_of_keeps (by rw [Query.ofQuery_of_hard hhard]) hkeeps⟩
  obtain ⟨cs, hdiscover, hfound⟩ :=
    exists_discover_eq hr hknown hbeginning hcompiles hselection hlimit
  have hitem : .item i ∈ cs := hfound x hx _ hi hdescribes haddressed hadmits
  refine ⟨_, hdiscover, ?_⟩
  obtain ⟨document, hcompile⟩ := hcompiles
  rw [Query.trim, Query.matchesNothing_of_compile ((d.compile_restrict q).trans hcompile), d.ofQuery_restrict]
  refine List.mem_filterMap.2 ⟨.item i, List.mem_filter.2 ⟨hitem, ?_⟩, ?_⟩
  · exact ((d.restrict q).allowsPublisher_iff _).2 hadmits
  · simp [TrimScope.result, hvs]

/-- Available versions of medium length; two of the constraints are on one field. -/
def mediumQuery : Query :=
  let duration : Attribute :=
    { name := "version.duration", field := "duration", target := .version, valueKind := .integer }
  { constraints :=
      [{ subject := duration, operator := .greaterThan, operands := .integers [60] },
       { subject := duration, operator := .lessThan, operands := .integers [3600] },
       { subject := { name := "location.available", field := "available", target := .location,
                      valueKind := .boolean },
         operator := .equals, operands := .booleans [true] }] }

/-- An item with a short version and a longer one, which is no longer to be had at one of its
places. -/
def shortAndMedium : Item :=
  { described := { canonicalUri := "/item", publisher := some .bbc }
    versions := [versionLasting 10 [{}], versionLasting 1800 [{ available := false }, {}]] }

/-- The item is found, with what is left of the longer version. -/
theorem mem_discover_mediumQuery :
    ∃ found, (({} : Discovery).discover mediumQuery
        (Repository.write (.item shortAndMedium) {}).1).2 = .ok found ∧
      .item { shortAndMedium with versions := [versionLasting 1800 [{}]] } ∈ found := by
  have hdocuments : (Repository.write (.item shortAndMedium) {}).1.content.documents =
      [(Content.item shortAndMedium).toDocument] := by rfl
  refine mem_discover_of_versions {} mediumQuery _ (.write _ .empty) (by decide) (by decide) (by decide)
    ⟨_, rfl⟩ rfl (isWithinLimit_of_length (by rw [hdocuments]; decide) _)
    (Content.item shortAndMedium).toDocument (by rw [hdocuments]; exact List.mem_singleton_self _)
    shortAndMedium (Content.ofDocument_toDocument _) (by decide) (by decide) (by decide) (by simp)
    _ (by rfl)

end Discovery

end MediaCatalogue
