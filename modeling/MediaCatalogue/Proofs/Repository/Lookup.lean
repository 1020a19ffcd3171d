import Mathlib.Data.List.Nodup
import MediaCatalogue.Proofs.Query.Conditions
import MediaCatalogue.Proofs.Repository.Writing

/-!
# What uris find

A document is found by the uris of its content and of the members of that content, but each document
gives one piece of content only: its own if that is known as one of the uris, else the first member
that is, except that a group is never left for its members. Of what has one canonical uri the first
is the answer, items and containers before groups.

So a uri under which something is stored is answered, but perhaps by content that is known as another
uri of the request. Nothing else is found, apart from the groups in which something lies that was asked
for. And an item that has been written is found unless content in front of it answers under its uri with
a copy of its own; the first that does so decides.
-/

set_option autoImplicit false

namespace MediaCatalogue

/-- A set made of a list has the members of the list. -/
theorem TextSet.mem_ofList {s : String} {l : List String} : s ∈ (ofList l).toList ↔ s ∈ l := by
  have hfold : ∀ set : TextSet, s ∈ (l.foldl (fun set t => set.insert t) set).toList ↔
      s ∈ set.toList ∨ s ∈ l := by
    induction l with
    | nil => simp
    | cons t l ih =>
      intro set
      have hinsert : s ∈ (set.insert t).toList ↔ s = t ∨ s ∈ set.toList := mem_insertInto
      rw [List.foldl_cons, ih, hinsert, List.mem_cons]
      tauto
  exact (hfold empty).trans (by simp [empty])

/-- The filter document for uris is read as a choice of candidates. -/
theorem ofFields_lookupFilter (uris : List String) :
    Filter.ofFields (lookupFilter uris) = .ok (.oneOf "lookup" (uris.map .string)) := by
  have hname : Filter.isOperator "lookup" = false := by decide
  rw [lookupFilter, Filter.ofFields_singleton, Filter.ofEntry_in hname]

namespace Content

/-! ## What one document gives -/

/-- Whether content, or a member of it, is known as one of some uris. -/
def isFoundBy (uris : List String) (c : Content) : Bool :=
  c.isKnownAsAny uris || c.members.any (·.isKnownAsAny uris)

section

variable {uris : List String} {c : Content}

/-- Content is known as one of some uris when there is one among them that it is known as. -/
theorem isKnownAsAny_iff :
    c.isKnownAsAny uris = true ↔ ∃ u ∈ uris, c.described.isKnownAs u = true := by
  simp only [isKnownAsAny, Described.isKnownAs, List.any_eq_true, List.contains_iff_mem]
  exact ⟨fun ⟨u, hknown, hu⟩ => ⟨u, hu, hknown⟩, fun ⟨u, hu, hknown⟩ => ⟨u, hknown, hu⟩⟩

/-- The uris that content is stored under are those that it or a member of it is known as. -/
theorem mem_lookupUris {u : String} : u ∈ c.lookupUris.toList ↔
    c.described.isKnownAs u = true ∨ ∃ m ∈ c.members, m.described.isKnownAs u = true := by
  simp [lookupUris, TextSet.mem_ofList, Described.isKnownAs]

/-- Content is found by uris when it is stored under one of them. -/
theorem isFoundBy_iff : c.isFoundBy uris = true ↔ ∃ u ∈ uris, u ∈ c.lookupUris.toList := by
  simp only [isFoundBy, Bool.or_eq_true, List.any_eq_true, isKnownAsAny_iff, mem_lookupUris]
  constructor
  · rintro (⟨u, hu, hknown⟩ | ⟨m, hm, u, hu, hknown⟩)
    · exact ⟨u, hu, .inl hknown⟩
    · exact ⟨u, hu, .inr ⟨m, hm, hknown⟩⟩
  · rintro ⟨u, hu, hknown | ⟨m, hm, hknown⟩⟩
    · exact .inl ⟨u, hu, hknown⟩
    · exact .inr ⟨m, hm, u, hu, hknown⟩

/-- A document of content holds the uris that it is stored under. -/
theorem get?_lookup (c : Content) :
    Fields.get? "lookup" c.toDocument.fields = some (.array (c.lookupUris.toList.map .string)) :=
  Fields.get?_insert_self _ _ _

/-- The filter for uris matches the documents of the content that is found by them. -/
theorem isMatch_lookup (uris : List String) (c : Content) :
    (Filter.oneOf "lookup" (uris.map .string)).isMatch c.toDocument.fields = c.isFoundBy uris := by
  have hpath : pathSegments "lookup" = ["lookup"] := by decide
  -- the array as a whole is none of the uris, one of its items may be
  have harray : ∀ items u, (Value.array items).isCandidate (.string u) = false := fun _ _ => rfl
  rw [Filter.isMatch, Filter.isOneOfAt, Record.resolve_name hpath, c.get?_lookup, Bool.eq_iff_iff,
    Filter.anyLeaf_iff, isFoundBy_iff]
  simp [Value.array?, harray, Constraint.isCandidate_string, and_comm]

/-- Content that is itself known as one of the uris is what they name. -/
theorem named_of_isKnownAsAny (h : c.isKnownAsAny uris = true) : c.named uris = c := by
  simp [named, h]

/-- A group is what the uris name in it, whatever they are. -/
theorem named_of_isGroup (h : c.IsGroup) : c.named uris = c := by
  cases c with
  | group d ms => simp [named]
  | item i => exact h.elim
  | container about ms => exact h.elim

/-- Of content that is not known as one of some uris and is no group they name the first member that
is. -/
theorem exists_named_eq (hfound : c.isFoundBy uris = true) (hgroup : ¬ c.IsGroup)
    (hknown : c.isKnownAsAny uris = false) :
    ∃ m, c.members.find? (·.isKnownAsAny uris) = some m ∧
      (c.named uris).described = m.described ∧ m.isKnownAsAny uris = true := by
  have hmember : c.members.any (·.isKnownAsAny uris) = true := by
    simpa [isFoundBy, hknown] using hfound
  cases c with
  | item i => simp [members] at hmember
  | group d ms => exact absurd trivial hgroup
  | container about ms =>
    have hsome : (ms.find? (·.isKnownAsAny uris)).isSome :=
      List.find?_isSome.2 (List.any_eq_true.1 hmember)
    obtain ⟨m, hfind⟩ := Option.isSome_iff_exists.1 hsome
    refine ⟨m, hfind, ?_, List.find?_some hfind⟩
    cases m <;> simp [named, hknown, hfind, described]

/-- What uris name in content that they find is known as one of them, if the content is no group. -/
theorem isKnownAsAny_named (hfound : c.isFoundBy uris = true) (hgroup : ¬ c.IsGroup) :
    (c.named uris).isKnownAsAny uris = true := by
  cases hknown : c.isKnownAsAny uris with
  | true => rw [named_of_isKnownAsAny hknown, hknown]
  | false =>
    obtain ⟨m, -, hdescribed, hm⟩ := exists_named_eq hfound hgroup hknown
    rw [isKnownAsAny, hdescribed]
    exact hm

end

/-- Content is known as its canonical uri. -/
theorem isKnownAsAny_uri (c : Content) : c.isKnownAsAny [c.uri] = true := by
  simp [isKnownAsAny, Described.uris, uri]

/-- Whether a uri finds content and names in it what has this canonical uri. -/
def answersUnder (u : String) (c : Content) : Bool :=
  c.isFoundBy [u] && (c.named [u]).uri == u

/-- Content answers under its own canonical uri, and with itself. -/
theorem answersUnder_uri (c : Content) : c.answersUnder c.uri = true := by
  have hself := c.isKnownAsAny_uri
  simp [answersUnder, isFoundBy, hself, named_of_isKnownAsAny hself]

/-- Content of another uri answers under a uri if it is not itself known as that, and the first of its
members that is has it as its canonical uri. -/
theorem answersUnder_iff {u : String} {c : Content} (hgroup : ¬ c.IsGroup) (hother : c.uri ≠ u) :
    c.answersUnder u = true ↔ c.isKnownAsAny [u] = false ∧
      ∃ m, c.members.find? (·.isKnownAsAny [u]) = some m ∧ m.uri = u := by
  rw [answersUnder, Bool.and_eq_true, beq_iff_eq]
  constructor
  · rintro ⟨hfound, hnamed⟩
    have hknown : c.isKnownAsAny [u] = false := by
      by_contra hknown
      rw [named_of_isKnownAsAny (Bool.eq_true_of_not_eq_false hknown)] at hnamed
      exact hother hnamed
    obtain ⟨m, hfind, hdescribed, -⟩ := exists_named_eq hfound hgroup hknown
    have hmember : (c.named [u]).uri = m.uri := congrArg Described.canonicalUri hdescribed
    exact ⟨hknown, m, hfind, hmember.symm.trans hnamed⟩
  · rintro ⟨hknown, m, hfind, huri⟩
    have hfound : c.isFoundBy [u] = true := by
      rw [isFoundBy, hknown, Bool.false_or]
      exact List.any_eq_true.2 ⟨m, List.mem_of_find?_eq_some hfind, List.find?_some hfind⟩
    obtain ⟨m', hfind', hdescribed, -⟩ := exists_named_eq hfound hgroup hknown
    cases hfind.symm.trans hfind'
    exact ⟨hfound, (congrArg Described.canonicalUri hdescribed).trans huri⟩

/-- What uris name in those pieces of content that they find. -/
def namedAmong (uris : List String) (kept : List Content) : List Content :=
  (kept.filter (·.isFoundBy uris)).map (·.named uris)

/-- What uris name among content is what they name in a piece that they find. -/
theorem mem_namedAmong {uris : List String} {kept : List Content} {x : Content} :
    x ∈ namedAmong uris kept ↔ ∃ c ∈ kept, c.isFoundBy uris = true ∧ c.named uris = x := by
  simp [namedAmong, and_assoc]

/-- What uris name among items and containers is known as one of them. -/
theorem exists_isKnownAs_of_mem_namedAmong {uris : List String} {kept : List Content} {x : Content}
    (hkept : ∀ c ∈ kept, ¬ c.IsGroup) (hx : x ∈ namedAmong uris kept) :
    ∃ u ∈ uris, x.described.isKnownAs u = true := by
  obtain ⟨c, hc, hfound, rfl⟩ := mem_namedAmong.1 hx
  exact isKnownAsAny_iff.1 (isKnownAsAny_named hfound (hkept c hc))

/-- Uris name a group where it or a member of it is known as one of them. -/
theorem mem_namedAmong_of_isGroup {uris : List String} {kept : List Content} {x : Content}
    (hkept : ∀ c ∈ kept, c.IsGroup) :
    x ∈ namedAmong uris kept ↔ x ∈ kept ∧ x.isFoundBy uris = true := by
  rw [mem_namedAmong]
  constructor
  · rintro ⟨c, hc, hfound, rfl⟩
    rw [named_of_isGroup (hkept c hc)]
    exact ⟨hc, hfound⟩
  · rintro ⟨hx, hfound⟩
    exact ⟨x, hx, hfound, named_of_isGroup (hkept x hx)⟩

/-- What a uri names first among what has that canonical uri is named by the first content that answers
under it. -/
theorem find?_namedAmong (u : String) (kept : List Content) :
    (namedAmong [u] kept).find? (·.uri == u) =
      (kept.find? (·.answersUnder u)).map (·.named [u]) := by
  have hanswers : (fun c : Content => decide (c.isFoundBy [u] = true ∧
      ((·.uri == u) ∘ (·.named [u])) c = true)) = (·.answersUnder u) := by
    funext c
    simp [answersUnder, Bool.decide_and, beq_eq_decide]
  rw [namedAmong, List.find?_map, List.find?_filter, hanswers]

/-- Where content answers under a uri, the first that does so decides, whatever comes behind it. -/
theorem find?_namedAmong_append {u : String} {c : Content} (hc : c.answersUnder u = true)
    (before after more : List Content) :
    (namedAmong [u] (before ++ c :: after) ++ more).find? (·.uri == u) =
      some (((before.find? (·.answersUnder u)).getD c).named [u]) := by
  rw [List.find?_append, find?_namedAmong, List.find?_append, List.find?_cons_of_pos (by exact hc)]
  cases before.find? (·.answersUnder u) <;> rfl

/-! ## Each canonical uri once -/

/-- What stays is the first of its uri. -/
theorem mem_distinct {seen : List String} {cs : List Content} {x : Content} :
    x ∈ distinct seen cs ↔ x.uri ∉ seen ∧ cs.find? (·.uri == x.uri) = some x := by
  induction cs generalizing seen with
  | nil => simp [distinct]
  | cons c cs ih =>
    rw [distinct]
    split
    · rename_i hseen
      rw [ih]
      refine and_congr_right fun hx => ?_
      have hne : c.uri ≠ x.uri := fun heq => hx (heq ▸ List.contains_iff_mem.1 hseen)
      rw [List.find?_cons_of_neg (by simpa using hne)]
    · rename_i hseen
      have hnot : c.uri ∉ seen := fun hmem => hseen (List.contains_iff_mem.2 hmem)
      rw [List.mem_cons, ih]
      by_cases heq : c.uri = x.uri
      · rw [List.find?_cons_of_pos (by simpa using heq), Option.some_inj, ← heq]
        simp [hnot, eq_comm]
      · have hne : x ≠ c := fun h => heq (h ▸ rfl)
        rw [List.find?_cons_of_neg (by simpa using heq)]
        simp [hne, Ne.symm heq]

/-- What stays was there. -/
theorem mem_of_mem_distinct {seen : List String} {cs : List Content} {x : Content}
    (hx : x ∈ distinct seen cs) : x ∈ cs :=
  List.mem_of_find?_eq_some (mem_distinct.1 hx).2

/-- Of each uri only one piece of content stays. -/
theorem eq_of_mem_distinct {seen : List String} {cs : List Content} {x y : Content}
    (hx : x ∈ distinct seen cs) (hy : y ∈ distinct seen cs) (huri : x.uri = y.uri) : x = y := by
  obtain ⟨-, hfirst⟩ := mem_distinct.1 hx
  obtain ⟨-, hyfirst⟩ := mem_distinct.1 hy
  rw [huri, hyfirst] at hfirst
  exact (Option.some_inj.1 hfirst).symm

/-- The uris of what stays are different. -/
theorem nodup_distinct (seen : List String) (cs : List Content) : ((distinct seen cs).map uri).Nodup := by
  induction cs generalizing seen with
  | nil => exact List.nodup_nil
  | cons c cs ih =>
    rw [distinct]
    split
    · exact ih seen
    · rw [List.map_cons, List.nodup_cons]
      refine ⟨fun hmem => ?_, ih _⟩
      obtain ⟨x, hx, huri⟩ := List.mem_map.1 hmem
      exact (mem_distinct.1 hx).1 (huri ▸ List.mem_cons_self)

/-- Of every uri one piece of content stays, and it is the first. -/
theorem exists_mem_distinct {cs : List Content} {y : Content} (hy : y ∈ cs) :
    ∃ x ∈ distinct [] cs, x.uri = y.uri ∧ cs.find? (·.uri == y.uri) = some x := by
  have hsome : (cs.find? (·.uri == y.uri)).isSome := List.find?_isSome.2 ⟨y, hy, by simp⟩
  obtain ⟨x, hfind⟩ := Option.isSome_iff_exists.1 hsome
  have huri : x.uri = y.uri := by simpa using List.find?_some hfind
  exact ⟨x, mem_distinct.2 ⟨List.not_mem_nil, huri ▸ hfind⟩, huri, hfind⟩

/-- What lies in front is found first. -/
theorem mem_of_find?_append {as bs : List Content} {p : Content → Bool} {x y : Content}
    (hfind : (as ++ bs).find? p = some x) (hy : y ∈ as) (hp : p y = true) : x ∈ as := by
  have hsome : (as.find? p).isSome := List.find?_isSome.2 ⟨y, hy, hp⟩
  obtain ⟨z, hz⟩ := Option.isSome_iff_exists.1 hsome
  rw [List.find?_append, hz, Option.some_or, Option.some_inj] at hfind
  exact hfind ▸ List.mem_of_find?_eq_some hz

/-- The documents of content are read as that content. -/
theorem ofDocuments_toDocument (cs : List Content) : ofDocuments (cs.map toDocument) = .ok cs := by
  induction cs with
  | nil => rfl
  | cons c cs ih => rw [List.map_cons, ofDocuments, ofDocument_toDocument, ih]

end Content

open Content

/-- A collection of content gives for uris what they name among the content. -/
theorem Collection.findByUris_eq {c : Collection} {kept : List Content}
    (h : c.documents = kept.map toDocument) (uris : List String) :
    (c.findByUris uris).2 = .ok (namedAmong uris kept) := by
  have hmatch : (fun d : Document => (Filter.oneOf "lookup" (uris.map .string)).isMatch d.fields) ∘
      toDocument = isFoundBy uris := funext fun x => x.isMatch_lookup uris
  have hfind : (c.find (lookupFilter uris) {}).2 = .ok ((kept.filter (isFoundBy uris)).map toDocument) := by
    rw [find_eq (ofFields_lookupFilter uris), h, List.filter_map, hmatch]
    rfl
  unfold findByUris
  dsimp only
  rw [hfind]
  dsimp only
  rw [ofDocuments_toDocument]
  rfl

namespace Repository

/-- Looking for uris never fails, and finds of each canonical uri what comes first. -/
theorem Keeps.findByUris_eq {r : Repository} {content groups : List Content}
    (h : r.Keeps content groups) (uris : List String) :
    (r.findByUris uris).2 =
      .ok (Content.distinct [] (namedAmong uris content ++ namedAmong uris groups)) := by
  have hcontent := Collection.findByUris_eq h.content_eq uris
  have hgroups := Collection.findByUris_eq h.groups_eq uris
  unfold findByUris
  dsimp only
  rw [hcontent]
  dsimp only
  rw [hgroups]
  rfl

/-- Each stored document is that of content that the repository keeps. -/
theorem Keeps.exists_of_mem_documents {r : Repository} {content groups : List Content}
    (h : r.Keeps content groups) {d : Document}
    (hd : d ∈ r.content.documents ∨ d ∈ r.groups.documents) :
    ∃ c, (c ∈ content ∨ c ∈ groups) ∧ c.toDocument = d := by
  rw [h.content_eq, h.groups_eq, List.mem_map, List.mem_map] at hd
  rcases hd with ⟨c, hc, hd⟩ | ⟨c, hc, hd⟩
  · exact ⟨c, .inl hc, hd⟩
  · exact ⟨c, .inr hc, hd⟩

/-- **What every uri finds.** A uri that stands in a stored document is answered by what the request
names in that document, or by what comes before it under the same canonical uri. This is known as
the uri, or as another uri of the request, or it is a group with a member that is known as the uri. -/
theorem exists_findByUris_of_mem_lookup {r : Repository} (hr : r.Reachable) (uris : List String) :
    ∃ found, (r.findByUris uris).2 = .ok found ∧
      ∀ d, d ∈ r.content.documents ∨ d ∈ r.groups.documents →
        ∀ texts, Fields.get? "lookup" d.fields = some (.array texts) →
          ∀ u ∈ uris, .string u ∈ texts →
            ∃ c, ofDocument d = .ok c ∧ ∃ x ∈ found, x.uri = (c.named uris).uri ∧
              (x.described.isKnownAs u = true ∨
                (∃ v ∈ uris, v ≠ u ∧ x.described.isKnownAs v = true) ∨
                c.IsGroup ∧ x = c ∧ ∃ m ∈ c.members, m.described.isKnownAs u = true) := by
  obtain ⟨content, groups, hkeeps⟩ := hr.exists_keeps
  refine ⟨_, hkeeps.findByUris_eq uris, ?_⟩
  intro d hd texts htexts u hu hmem
  obtain ⟨c, hc, rfl⟩ := hkeeps.exists_of_mem_documents hd
  have hlookup : u ∈ c.lookupUris.toList := by
    rw [c.get?_lookup] at htexts
    cases htexts
    simpa using hmem
  -- it is named in the collection in which its content is
  have hnamed : ∀ {kept}, c ∈ kept → c.named uris ∈ namedAmong uris kept := fun hc =>
    mem_namedAmong.2 ⟨c, hc, isFoundBy_iff.2 ⟨u, hu, hlookup⟩, rfl⟩
  obtain ⟨x, hx, huri, hfirst⟩ := exists_mem_distinct
    (List.mem_append.2 (hc.imp hnamed hnamed) :
      c.named uris ∈ namedAmong uris content ++ namedAmong uris groups)
  refine ⟨c, c.ofDocument_toDocument, x, hx, huri, ?_⟩
  by_cases hx : x ∈ namedAmong uris content
  · obtain ⟨v, hv, hknown⟩ := exists_isKnownAs_of_mem_namedAmong hkeeps.not_isGroup hx
    by_cases heq : v = u
    · exact .inl (heq ▸ hknown)
    · exact .inr (.inl ⟨v, hv, heq, hknown⟩)
  · have hgroups : c ∈ groups := hc.resolve_left fun hc =>
      hx (mem_of_find?_append hfirst (hnamed hc) (by simp))
    -- of a uri there is one group, and a group is never left for its members
    obtain ⟨g, hg, -, rfl⟩ := mem_namedAmong.1
      ((List.mem_append.1 (List.mem_of_find?_eq_some hfirst)).resolve_left hx)
    have hgroup := hkeeps.isGroup g hg
    rw [named_of_isGroup hgroup, named_of_isGroup (hkeeps.isGroup c hgroups)] at huri
    obtain rfl : g = c := List.inj_on_of_nodup_map hkeeps.groups_nodup hg hgroups huri
    rw [named_of_isGroup hgroup]
    exact (mem_lookupUris.1 hlookup).imp_right fun hmember => .inr ⟨hgroup, rfl, hmember⟩

/-- A series of some uri, without members. -/
def seriesAt (uri : String) : Content :=
  .container { described := { canonicalUri := uri }, kind := .series } []

/-- A group of some members. -/
def groupWith (members : List Content) : Content :=
  .group { canonicalUri := "/group" } members

/-- A series that is stored in its brand only is found by its uri. -/
theorem exists_findByUris_series :
    ∃ found, ((afterWriting [brandOf [seriesAt "/one", seriesAt "/two"]]).findByUris ["/two"]).2 =
        .ok found ∧
      ∃ x ∈ found, x.described.isKnownAs "/two" = true := by
  obtain ⟨found, hfound, hknown⟩ := exists_findByUris_of_mem_lookup
    (reachable_afterWriting [brandOf [seriesAt "/one", seriesAt "/two"]]) ["/two"]
  have hstored : (brandOf [seriesAt "/one", seriesAt "/two"]).toDocument ∈
      (afterWriting [brandOf [seriesAt "/one", seriesAt "/two"]]).content.documents :=
    List.mem_singleton_self _
  obtain ⟨c, hc, x, hx, -, hcases⟩ := hknown _ (.inl hstored) _ (get?_lookup _) "/two"
    (List.mem_singleton_self _) (List.mem_map_of_mem (by decide))
  rw [ofDocument_toDocument] at hc
  cases hc
  refine ⟨found, hfound, x, hx, ?_⟩
  rcases hcases with h | ⟨v, hv, hne, -⟩ | ⟨hgroup, -⟩
  · exact h
  · exact absurd (List.mem_singleton.1 hv) hne
  · exact hgroup.elim

/-- A group answers for its members itself, and a brand names one of two series only. -/
theorem findByUris_not_known :
    ((afterWriting [groupWith [itemAt "/item"]]).Reachable ∧
        (afterWriting [groupWith [itemAt "/item"]]).groups.documents =
          [(groupWith [itemAt "/item"]).toDocument] ∧
        Fields.get? "lookup" (groupWith [itemAt "/item"]).toDocument.fields =
          some (.array [.string "/group", .string "/item"]) ∧
        ((afterWriting [groupWith [itemAt "/item"]]).findByUris ["/item"]).2 =
          .ok [groupWith [itemAt "/item"]] ∧
        (groupWith [itemAt "/item"]).described.isKnownAs "/item" = false) ∧
      (afterWriting [brandOf [seriesAt "/one", seriesAt "/two"]]).Reachable ∧
        (afterWriting [brandOf [seriesAt "/one", seriesAt "/two"]]).content.documents =
          [(brandOf [seriesAt "/one", seriesAt "/two"]).toDocument] ∧
        Fields.get? "lookup" (brandOf [seriesAt "/one", seriesAt "/two"]).toDocument.fields =
          some (.array [.string "/brand", .string "/one", .string "/two"]) ∧
        ((afterWriting [brandOf [seriesAt "/one", seriesAt "/two"]]).findByUris ["/one", "/two"]).2 =
          .ok [seriesAt "/one"] ∧
        (seriesAt "/one").described.isKnownAs "/two" = false :=
  ⟨⟨reachable_afterWriting _, rfl, rfl, rfl, by decide⟩,
    reachable_afterWriting _, rfl, rfl, rfl, by decide⟩

/-! ## Answering no more than what was asked -/

/-- **Why something is found.** What is found is known as one of the uris, or it is a group that is
stored with a member that is. -/
theorem isKnownAs_of_mem_findByUris {r : Repository} (hr : r.Reachable) (uris : List String) :
    ∃ found, (r.findByUris uris).2 = .ok found ∧
      ∀ x ∈ found, (∃ u ∈ uris, x.described.isKnownAs u = true) ∨
        (x.IsGroup ∧ x.toDocument ∈ r.groups.documents ∧
          ∃ m ∈ x.members, ∃ u ∈ uris, m.described.isKnownAs u = true) := by
  obtain ⟨content, groups, hkeeps⟩ := hr.exists_keeps
  refine ⟨_, hkeeps.findByUris_eq uris, ?_⟩
  intro x hx
  rcases List.mem_append.1 (mem_of_mem_distinct hx) with hx | hx
  · exact .inl (exists_isKnownAs_of_mem_namedAmong hkeeps.not_isGroup hx)
  · obtain ⟨hgroup, hfound⟩ := (mem_namedAmong_of_isGroup hkeeps.isGroup).1 hx
    obtain ⟨u, hu, hlookup⟩ := isFoundBy_iff.1 hfound
    rcases mem_lookupUris.1 hlookup with hknown | ⟨m, hm, hknown⟩
    · exact .inl ⟨u, hu, hknown⟩
    · have hstored : x.toDocument ∈ r.groups.documents := by
        rw [hkeeps.groups_eq]
        exact List.mem_map_of_mem hgroup
      exact .inr ⟨hkeeps.isGroup x hgroup, hstored, m, hm, u, hu, hknown⟩

/-- An item on its own and in a group. -/
def itemAndGroup : Repository :=
  afterWriting [itemAt "/item", groupWith [itemAt "/item"]]

/-- What is found for the uri of the item, the group apart, is known as it. -/
theorem isKnownAs_of_mem_findByUris_itemAndGroup :
    itemAndGroup.Reachable ∧ ∃ found, (itemAndGroup.findByUris ["/item"]).2 = .ok found ∧
      ∀ x ∈ found, ¬ x.IsGroup → x.described.isKnownAs "/item" = true := by
  have hreachable : itemAndGroup.Reachable := reachable_afterWriting _
  obtain ⟨found, hfound, hknown⟩ := isKnownAs_of_mem_findByUris hreachable ["/item"]
  refine ⟨hreachable, found, hfound, ?_⟩
  intro x hx hgroup
  rcases hknown x hx with ⟨u, hu, hx⟩ | ⟨hx, -⟩
  · rw [List.mem_singleton.1 hu] at hx
    exact hx
  · exact absurd hx hgroup

/-- With an item the groups are found in which it lies, and they have uris of their own. -/
theorem findByUris_item_with_group :
    itemAndGroup.Reachable ∧
      (itemAndGroup.findByUris ["/item"]).2 = .ok [itemAt "/item", groupWith [itemAt "/item"]] ∧
      ¬ ∃ u ∈ ["/item"], (groupWith [itemAt "/item"]).described.isKnownAs u = true :=
  ⟨reachable_afterWriting _, rfl, by decide⟩

/-! ## Reading what was written -/

/-- **What is found under the uri of an item that has been written.** One piece of content has this
uri. It is the item, if no content in front of the item answers under the uri. Otherwise the first
content there that does decides: it is not itself known as the uri, the first of its members that is
has this uri, and that member is found as it was when the content in front was written. -/
theorem findByUris_write_item {r : Repository} (hr : r.Reachable) {i : Item}
    (h : (r.write (.item i)).2 = .ok ()) :
    ∃ before after found,
      (r.write (.item i)).1.content.documents = (before ++ .item i :: after).map toDocument ∧
      ((r.write (.item i)).1.findByUris [i.described.canonicalUri]).2 = .ok found ∧
      ∃ x ∈ found, x.uri = i.described.canonicalUri ∧
        (∀ y ∈ found, y.uri = i.described.canonicalUri → y = x) ∧
        ((x = .item i ∧ ∀ c ∈ before, c.answersUnder i.described.canonicalUri = false) ∨
          ∃ front c rest, before = front ++ c :: rest ∧
            (∀ b ∈ front, b.answersUnder i.described.canonicalUri = false) ∧
            c.answersUnder i.described.canonicalUri = true ∧
            x = c.named [i.described.canonicalUri] ∧
            c.isKnownAsAny [i.described.canonicalUri] = false ∧
            ∃ m, c.members.find? (·.isKnownAsAny [i.described.canonicalUri]) = some m ∧
              m.uri = i.described.canonicalUri) := by
  obtain ⟨content, groups, hkeeps⟩ := hr.exists_keeps
  obtain ⟨before, after, hwritten, hbefore⟩ := hkeeps.exists_of_write_item h
  have hself : (Content.item i).answersUnder i.described.canonicalUri = true :=
    (Content.item i).answersUnder_uri
  -- what is found is what the first content that answers names
  have hfirst := find?_namedAmong_append hself before after
    (namedAmong [i.described.canonicalUri] groups)
  obtain ⟨x, hx⟩ : ∃ x, ((before.find? (·.answersUnder i.described.canonicalUri)).getD (.item i)).named
      [i.described.canonicalUri] = x := ⟨_, rfl⟩
  rw [hx] at hfirst
  have huri : x.uri = i.described.canonicalUri := by simpa using List.find?_some hfirst
  have hmem : x ∈ Content.distinct [] (namedAmong [i.described.canonicalUri] (before ++ .item i :: after) ++
      namedAmong [i.described.canonicalUri] groups) :=
    mem_distinct.2 ⟨List.not_mem_nil, huri ▸ hfirst⟩
  refine ⟨before, after, _, hwritten.content_eq, hwritten.findByUris_eq _, x, hmem, huri,
    fun y hy hyuri => eq_of_mem_distinct hy hmem (hyuri.trans huri.symm), ?_⟩
  cases hfind : before.find? (·.answersUnder i.described.canonicalUri) with
  | none =>
    have hitem := named_of_isKnownAsAny (isKnownAsAny_uri (.item i))
    rw [hfind] at hx
    exact .inl ⟨hx.symm.trans hitem, fun c hc => by simpa using List.find?_eq_none.1 hfind c hc⟩
  | some c =>
    rw [hfind, Option.getD_some] at hx
    obtain ⟨hanswers, front, rest, rfl, hfront⟩ := List.find?_eq_some_iff_append.1 hfind
    have hc : c ∈ front ++ c :: rest := by simp
    have hgroup := hwritten.not_isGroup c (List.mem_append_left _ hc)
    obtain ⟨hknown, hmember⟩ := (answersUnder_iff hgroup (hbefore c hc)).1 hanswers
    exact .inr ⟨front, c, rest, rfl, fun b hb => by simpa using hfront b hb, hanswers, hx.symm, hknown,
      hmember⟩

/-- A brand that was stored before the first episode that was written for it. -/
def brandFirst : Repository :=
  afterWriting [brandOf [], brandOf [.item (episodeTitled "Old")]]

/-- Writing the episode of such a brand again goes well, so what is then found under its uri is told by
the content in front of it. -/
theorem findByUris_write_episode :
    (brandFirst.write (.item (episodeTitled "New"))).2 = .ok () ∧
      ∃ before after found,
        (brandFirst.write (.item (episodeTitled "New"))).1.content.documents =
            (before ++ .item (episodeTitled "New") :: after).map toDocument ∧
          ((brandFirst.write (.item (episodeTitled "New"))).1.findByUris ["/episode"]).2 = .ok found ∧
          ∃ x ∈ found, x.uri = "/episode" ∧ (∀ y ∈ found, y.uri = "/episode" → y = x) ∧
            ((x = .item (episodeTitled "New") ∧ ∀ c ∈ before, c.answersUnder "/episode" = false) ∨
              ∃ front c rest, before = front ++ c :: rest ∧
                (∀ b ∈ front, b.answersUnder "/episode" = false) ∧
                c.answersUnder "/episode" = true ∧ x = c.named ["/episode"] ∧
                c.isKnownAsAny ["/episode"] = false ∧
                ∃ m, c.members.find? (·.isKnownAsAny ["/episode"]) = some m ∧ m.uri = "/episode") := by
  have hwrite : (brandFirst.write (.item (episodeTitled "New"))).2 = .ok () := rfl
  exact ⟨hwrite, findByUris_write_item (reachable_afterWriting _) hwrite⟩

/-- An episode that was written with a new title is found with the old one, which its brand has. -/
theorem findByUris_episode_stale :
    brandFirst.Reachable ∧ (brandFirst.write (.item (episodeTitled "New"))).2 = .ok () ∧
      ((brandFirst.write (.item (episodeTitled "New"))).1.findByUris ["/episode"]).2 =
        .ok [.item (episodeTitled "Old")] ∧
      episodeTitled "Old" ≠ episodeTitled "New" :=
  ⟨reachable_afterWriting _, rfl, rfl, by decide⟩

end Repository
end MediaCatalogue
