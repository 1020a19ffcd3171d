import MediaCatalogue.Proofs.Record.Exactness
import MediaCatalogue.Proofs.Repository.Reachable
import MediaCatalogue.Proofs.Store.Replacement

/-!
# What writing does

A collection that comes about by writing holds the documents of a list of content, each uri once. So
what is written, refused or found can be said of that list: content is put into it in place of the
content of its uri, or at the end, unless the content of its uri is of another category or its own
document may not be stored.

A container is put in after its items, one after another. When one of these steps is refused the
steps before it have been taken, so a container can be stored in part; an item and a group cannot.
-/

set_option autoImplicit false

namespace MediaCatalogue

/-! ## Putting content into a list -/

namespace Content

/-- What may take the place of the content. -/
def category (c : Content) : Category :=
  .ofTypeName c.typeName

/-- Content put among other content: in place of the first of its uri, or at the end. -/
def putInto (c : Content) : List Content → List Content
  | [] => [c]
  | x :: kept => if x.uri = c.uri then c :: kept else x :: c.putInto kept

/-- Why content may not take the place of other content. -/
def conflict? (c x : Content) : Option RepositoryError :=
  if x.category = c.category then none else some (.kindConflict c.uri x.typeName c.typeName)

/-- Why content cannot be put among other content. -/
def refusal? (c : Content) (kept : List Content) : Option RepositoryError :=
  match (kept.find? fun x => x.uri == c.uri).bind c.conflict?, c.toDocument.validate with
  | some e, _ => some e
  | none, .error e => some (.store (.document e))
  | none, .ok _ => none

/-- What is kept after content was to be stored, and what came of it. -/
def put (c : Content) (kept : List Content) : List Content × Except RepositoryError Unit :=
  match c.refusal? kept with
  | some e => (kept, .error e)
  | none => (c.putInto kept, .ok ())

/-- Put content in piece after piece, up to the first that is refused. -/
def putAll : List Content → List Content → List Content × Except RepositoryError Unit
  | [], kept => (kept, .ok ())
  | c :: rest, kept =>
    match c.refusal? kept with
    | some e => (kept, .error e)
    | none => putAll rest (c.putInto kept)

section

variable (c : Content) {kept before after : List Content} {x : Content}

/-- Content of a new uri is put at the end. -/
theorem putInto_of_forall_ne (h : ∀ y ∈ kept, y.uri ≠ c.uri) : c.putInto kept = kept ++ [c] := by
  induction kept with
  | nil => rfl
  | cons y kept ih =>
    rw [List.forall_mem_cons] at h
    rw [putInto, if_neg h.1, ih h.2, List.cons_append]

/-- Content of a uri that is there takes the place of the first piece of that uri. -/
theorem putInto_append (hbefore : ∀ y ∈ before, y.uri ≠ c.uri) (hx : x.uri = c.uri) :
    c.putInto (before ++ x :: after) = before ++ c :: after := by
  induction before with
  | nil => rw [List.nil_append, List.nil_append, putInto, if_pos hx]
  | cons y before ih =>
    rw [List.forall_mem_cons] at hbefore
    rw [List.cons_append, putInto, if_neg hbefore.1, ih hbefore.2, List.cons_append]

/-- Content is put in between what stays in front of it and what stays behind. -/
theorem exists_putInto_eq (kept : List Content) :
    ∃ before after, c.putInto kept = before ++ c :: after ∧ (∀ y ∈ before, y.uri ≠ c.uri) ∧
      ((kept = before ∧ after = []) ∨ ∃ x, x.uri = c.uri ∧ kept = before ++ x :: after) := by
  cases hfind : kept.find? fun x => x.uri == c.uri with
  | none =>
    have hne : ∀ y ∈ kept, y.uri ≠ c.uri := by simpa using hfind
    exact ⟨kept, [], c.putInto_of_forall_ne hne, hne, .inl ⟨rfl, rfl⟩⟩
  | some x =>
    obtain ⟨hx, before, after, rfl, hbefore⟩ := List.find?_eq_some_iff_append.1 hfind
    have hx : x.uri = c.uri := by simpa using hx
    have hbefore : ∀ y ∈ before, y.uri ≠ c.uri := by simpa using hbefore
    exact ⟨before, after, c.putInto_append hbefore hx, hbefore, .inr ⟨x, hx, rfl⟩⟩

/-- After content is put in there is nothing new but that. -/
theorem mem_putInto {y : Content} (h : y ∈ c.putInto kept) : y = c ∨ y ∈ kept := by
  obtain ⟨before, after, hput, -, hkept⟩ := c.exists_putInto_eq kept
  have hsub : ∀ z ∈ before ++ after, z ∈ kept := by
    rcases hkept with ⟨rfl, rfl⟩ | ⟨x, -, rfl⟩ <;> simp +contextual [or_imp]
  rw [hput, List.mem_append, List.mem_cons] at h
  rcases h with h | rfl | h
  · exact .inr (hsub y (List.mem_append_left _ h))
  · exact .inl rfl
  · exact .inr (hsub y (List.mem_append_right _ h))

/-- Content that is put in is there. -/
theorem mem_putInto_self (kept : List Content) : c ∈ c.putInto kept := by
  obtain ⟨before, after, hput, -⟩ := c.exists_putInto_eq kept
  rw [hput]
  exact List.mem_append_right _ List.mem_cons_self

/-- Each uri stays the uri of one piece of content. -/
theorem nodup_putInto (h : (kept.map uri).Nodup) : ((c.putInto kept).map uri).Nodup := by
  obtain ⟨before, after, hput, hbefore, hkept⟩ := c.exists_putInto_eq kept
  have huris : ((c.putInto kept).map uri) = before.map uri ++ c.uri :: after.map uri := by simp [hput]
  rw [huris]
  rcases hkept with ⟨rfl, rfl⟩ | ⟨x, hx, rfl⟩
  · refine List.nodup_append.2 ⟨h, by simp, ?_⟩
    intro u hu v hv
    obtain ⟨y, hy, rfl⟩ := List.mem_map.1 hu
    rw [List.mem_singleton.1 hv]
    exact hbefore y hy
  · simpa [hx] using h

end

/-! ## Putting in a run of content -/

/-- A run that succeeds has put in everything. -/
theorem putAll_of_ok {cs kept : List Content} (h : (putAll cs kept).2 = .ok ()) :
    (putAll cs kept).1 = cs.foldl (fun kept c => c.putInto kept) kept := by
  induction cs generalizing kept with
  | nil => rfl
  | cons c cs ih =>
    rw [putAll] at h ⊢
    cases hrefusal : c.refusal? kept with
    | some e =>
      rw [hrefusal] at h
      cases h
    | none =>
      rw [hrefusal] at h
      exact ih h

/-- A run that fails has put in what comes before a piece that is refused. -/
theorem exists_of_putAll_error {cs kept : List Content} {e : RepositoryError}
    (h : (putAll cs kept).2 = .error e) :
    ∃ stored refused rest, cs = stored ++ refused :: rest ∧ (putAll stored kept).2 = .ok () ∧
      refused.refusal? (putAll stored kept).1 = some e ∧
      (putAll cs kept).1 = (putAll stored kept).1 := by
  induction cs generalizing kept with
  | nil => cases h
  | cons c cs ih =>
    cases hrefusal : c.refusal? kept with
    | some e' =>
      simp only [putAll, hrefusal] at h
      cases h
      exact ⟨[], c, cs, rfl, rfl, hrefusal, by simp [putAll, hrefusal]⟩
    | none =>
      simp only [putAll, hrefusal] at h
      obtain ⟨stored, refused, rest, rfl, hok, hrefused, hkept⟩ := ih h
      refine ⟨c :: stored, refused, rest, rfl, ?_, ?_, ?_⟩ <;> simpa [putAll, hrefusal]

/-- What one step keeps, a run keeps, as far as it comes. -/
theorem putAll_induction {P : List Content → Prop} {cs kept : List Content} (hkept : P kept)
    (hstep : ∀ c ∈ cs, ∀ kept, c.refusal? kept = none → P kept → P (c.putInto kept)) :
    P (putAll cs kept).1 := by
  induction cs generalizing kept with
  | nil => exact hkept
  | cons c cs ih =>
    rw [List.forall_mem_cons] at hstep
    rw [putAll]
    cases hrefusal : c.refusal? kept with
    | some e => exact hkept
    | none => exact ih (hstep.1 kept hrefusal hkept) hstep.2

/-- A run keeps each uri that of one piece of content. -/
theorem nodup_putAll {kept : List Content} (h : (kept.map uri).Nodup) (cs : List Content) :
    ((putAll cs kept).1.map uri).Nodup :=
  putAll_induction (P := fun kept => (kept.map uri).Nodup) h fun c _ _ _ => c.nodup_putInto

/-- What holds of all that is there and of all pieces of a run holds of what the run leaves. -/
theorem forall_mem_putAll {P : Content → Prop} {cs kept : List Content} (hkept : ∀ x ∈ kept, P x)
    (hcs : ∀ c ∈ cs, P c) : ∀ x ∈ (putAll cs kept).1, P x := by
  refine putAll_induction (P := fun kept => ∀ x ∈ kept, P x) hkept fun c hc kept _ hall x hx => ?_
  rcases c.mem_putInto hx with rfl | hx
  · exact hcs x hc
  · exact hall x hx

/-! ## Documents of content -/

/-- A document of content holds its uri. -/
theorem get?_canonicalUri (c : Content) :
    Fields.get? "canonicalUri" c.toDocument.fields = some (.string c.uri) := by
  rw [c.get?_toDocument (by decide)]
  cases c <;>
    exact (Record.get?_ofEntries "canonicalUri" (by simp [Described.toEntries])).trans
      (by simp [Described.toEntries, Fields.get?, uri, described])

/-- A document of content has the type of the content. -/
theorem typeName_toDocument (c : Content) : c.toDocument.typeName = c.typeName := by
  rw [Document.typeName, c.get?_toDocument (by decide), c.get?_type]
  rfl

/-- The filter for a uri matches the document of the content of that uri. -/
theorem isMatch_uri (c : Content) (u : String) :
    (Filter.equal "canonicalUri" (.string u)).isMatch c.toDocument.fields = (c.uri == u) := by
  have hpath : pathSegments "canonicalUri" = ["canonicalUri"] := by decide
  rw [Filter.isMatch, Filter.isEqualAt, Record.resolve_name hpath, c.get?_canonicalUri]
  simp [Value.isNull, anyLeaf, Value.equals]

/-- A document takes the fields of another of the same uri and so becomes it. -/
theorem replace_toDocument {c x : Content} (h : x.uri = c.uri) :
    Update.apply (.replace c.toDocument) x.toDocument =
      c.toDocument.validate.map fun _ => c.toDocument := by
  have hsame : { x.toDocument with fields := c.toDocument.fields } = c.toDocument := by
    simp only [toDocument, h]
  rw [Update.apply_replace, hsame]

end Content

/-- The filter document for a uri is read as equality with it. -/
theorem ofFields_uriFilter (u : String) :
    Filter.ofFields (uriFilter u) = .ok (.equal "canonicalUri" (.string u)) := by
  have hname : Filter.isOperator "canonicalUri" = false := by decide
  rw [uriFilter, Filter.ofFields_singleton, Filter.ofEntry_plain hname rfl]

/-! ## Collections of content -/

namespace Collection

open Content

/-- Storing one piece after another stops at a first that is refused. -/
theorem upsertAll_cons_of_error {c : Collection} {x : Content} {e : RepositoryError} (cs : List Content)
    (h : (c.upsert x).2 = .error e) : c.upsertAll (x :: cs) = ((c.upsert x).1, .error e) := by
  rw [upsertAll]
  rcases hupsert : c.upsert x with ⟨c', outcome⟩
  rw [hupsert] at h
  obtain rfl : outcome = .error e := h
  rfl

/-- Storing one piece after another goes on after a first that is stored. -/
theorem upsertAll_cons_of_ok {c : Collection} {x : Content} (cs : List Content)
    (h : (c.upsert x).2 = .ok ()) : c.upsertAll (x :: cs) = (c.upsert x).1.upsertAll cs := by
  rw [upsertAll]
  rcases hupsert : c.upsert x with ⟨c', outcome⟩
  rw [hupsert] at h
  obtain rfl : outcome = .ok () := h
  rfl

section

variable {c : Collection} {kept : List Content} (h : c.documents = kept.map toDocument)

include h

/-- Looking for a uri finds the document of the first content of that uri. -/
theorem findOne_uriFilter (u : String) :
    (c.findOne (uriFilter u)).2 = .ok ((kept.find? fun x => x.uri == u).map toDocument) := by
  have hmatch : (fun x : Document => (Filter.equal "canonicalUri" (.string u)).isMatch x.fields) ∘
      toDocument = fun x => x.uri == u := funext fun x => x.isMatch_uri u
  rw [findOne_eq (ofFields_uriFilter u), h, List.find?_map, hmatch]

/-- Replacing the document of the content of a uri, or adding one, puts content into the list. -/
theorem update_uriFilter (x : Content) :
    (c.update (uriFilter x.uri) (.replace x.toDocument) true false).1.documents =
        (match x.toDocument.validate with
          | .error _ => kept
          | .ok _ => x.putInto kept).map toDocument ∧
      (c.update (uriFilter x.uri) (.replace x.toDocument) true false).2.map (fun _ => ()) =
        x.toDocument.validate.mapError .document := by
  have hread := ofFields_uriFilter x.uri
  have hnot : ∀ {before : List Content}, (∀ y ∈ before, y.uri ≠ x.uri) →
      ∀ d ∈ before.map toDocument,
        (Filter.equal "canonicalUri" (.string x.uri)).isMatch d.fields = false := by
    intro before hbefore d hd
    obtain ⟨y, hy, rfl⟩ := List.mem_map.1 hd
    rw [y.isMatch_uri, beq_eq_false_iff_ne]
    exact hbefore y hy
  obtain ⟨before, after, hput, hbefore, ⟨rfl, rfl⟩ | ⟨old, hold, rfl⟩⟩ := x.exists_putInto_eq kept
  · obtain ⟨hdocuments, houtcome⟩ := update_of_none hread c x.toDocument false
      (h ▸ hnot hbefore)
    refine ⟨hdocuments.trans ?_, houtcome⟩
    cases x.toDocument.validate <;> simp [h, hput]
  · rw [List.map_append, List.map_cons] at h
    obtain ⟨hdocuments, houtcome⟩ := update_of_first hread c (.replace x.toDocument) true h
      (hnot hbefore) (by rw [old.isMatch_uri, hold, beq_self_eq_true])
    rw [replace_toDocument hold] at hdocuments houtcome
    -- comparing as equal and being the same are one thing for documents of content
    have hsame : (if x.toDocument.equals old.toDocument then old.toDocument else x.toDocument) =
        x.toDocument := by
      split
      · rename_i hequals
        exact (Document.eq_of_equals x.fieldsExact_toDocument hequals).symm
      · rfl
    constructor
    · rw [hdocuments]
      cases x.toDocument.validate with
      | error e => simp [Except.map, h]
      | ok u => simp [Except.map, hsame, hput]
    · rw [houtcome]
      cases x.toDocument.validate <;> rfl

/-- **Storing content** puts it into the list that the collection holds. -/
theorem upsert_spec (x : Content) :
    (c.upsert x).1.documents = (x.put kept).1.map toDocument ∧ (c.upsert x).2 = (x.put kept).2 := by
  have hdocuments : (c.findOne (uriFilter x.uri)).1.documents = kept.map toDocument :=
    (documents_findOne _ c).trans h
  have hconflict : ((kept.find? fun y => y.uri == x.uri).map toDocument).bind (fun d =>
      if Category.ofTypeName d.typeName = Category.ofTypeName x.toDocument.typeName then none
      else some (RepositoryError.kindConflict x.uri d.typeName x.toDocument.typeName)) =
      (kept.find? fun y => y.uri == x.uri).bind x.conflict? := by
    cases kept.find? fun y => y.uri == x.uri with
    | none => rfl
    | some old =>
      rw [Option.map_some, Option.bind_some, Option.bind_some, typeName_toDocument, typeName_toDocument]
      rfl
  unfold upsert
  dsimp only
  rw [findOne_uriFilter h]
  dsimp only
  rw [hconflict, put, refusal?]
  cases (kept.find? fun y => y.uri == x.uri).bind x.conflict? with
  | some e => exact ⟨hdocuments, rfl⟩
  | none =>
    obtain ⟨hupdate, houtcome⟩ := update_uriFilter hdocuments x
    rcases hstored : (c.findOne (uriFilter x.uri)).1.update (uriFilter x.uri) (.replace x.toDocument)
      true false with ⟨c', e | result⟩ <;> rw [hstored] at hupdate houtcome <;>
      cases hvalid : x.toDocument.validate <;> rw [hvalid] at hupdate houtcome
    -- the update fails if the document may not be stored, and only then
    · cases houtcome
      exact ⟨hupdate, rfl⟩
    · cases houtcome
    · cases houtcome
    · exact ⟨hupdate, rfl⟩

/-- Storing content piece after piece puts it in piece after piece. -/
theorem upsertAll_spec (cs : List Content) :
    (c.upsertAll cs).1.documents = (putAll cs kept).1.map toDocument ∧
      (c.upsertAll cs).2 = (putAll cs kept).2 := by
  induction cs generalizing c kept with
  | nil => exact ⟨h, rfl⟩
  | cons x cs ih =>
    obtain ⟨hdocuments, houtcome⟩ := upsert_spec h x
    rw [put] at hdocuments houtcome
    rw [putAll]
    cases hrefusal : x.refusal? kept with
    | some e =>
      rw [hrefusal] at hdocuments houtcome
      rw [upsertAll_cons_of_error cs houtcome]
      exact ⟨hdocuments, rfl⟩
    | none =>
      rw [hrefusal] at hdocuments houtcome
      rw [upsertAll_cons_of_ok cs houtcome]
      exact ih hdocuments

/-- When storing fails, what comes before the piece that is refused has been stored, and the refusal
has changed nothing. -/
theorem exists_of_upsertAll_error {cs : List Content} {e : RepositoryError}
    (he : (c.upsertAll cs).2 = .error e) :
    ∃ stored refused rest, cs = stored ++ refused :: rest ∧ (c.upsertAll stored).2 = .ok () ∧
      ((c.upsertAll stored).1.upsert refused).2 = .error e ∧
      (c.upsertAll cs).1.documents = (c.upsertAll stored).1.documents := by
  obtain ⟨hdocuments, houtcome⟩ := upsertAll_spec h cs
  obtain ⟨stored, refused, rest, hcs, hok, hrefusal, hkept⟩ := exists_of_putAll_error (houtcome ▸ he)
  obtain ⟨hstored, hstoredOutcome⟩ := upsertAll_spec h stored
  refine ⟨stored, refused, rest, hcs, hstoredOutcome.trans hok, ?_, ?_⟩
  · rw [(upsert_spec hstored refused).2, put, hrefusal]
  · rw [hdocuments, hkept, hstored]

/-- A single piece that is refused changes nothing. -/
theorem documents_upsertAll_singleton {x : Content} {e : RepositoryError}
    (he : (c.upsertAll [x]).2 = .error e) : (c.upsertAll [x]).1.documents = c.documents := by
  obtain ⟨stored, refused, rest, hsplit, -, -, hdocuments⟩ := exists_of_upsertAll_error h he
  cases stored with
  | nil => exact hdocuments
  | cons y stored => simp at hsplit

end

end Collection

namespace Repository

open Content

/-- A repository keeps two lists of content, each uri once in each: items and containers in one,
groups in the other. -/
structure Keeps (r : Repository) (content groups : List Content) : Prop where
  content_eq : r.content.documents = content.map toDocument
  groups_eq : r.groups.documents = groups.map toDocument
  content_nodup : (content.map uri).Nodup
  groups_nodup : (groups.map uri).Nodup
  not_isGroup : ∀ c ∈ content, ¬ c.IsGroup
  isGroup : ∀ c ∈ groups, c.IsGroup

/-- The empty repository keeps nothing. -/
theorem keeps_empty : Keeps {} [] [] :=
  ⟨rfl, rfl, List.nodup_nil, List.nodup_nil, by simp, by simp⟩

section

variable {r : Repository} {content groups : List Content} (h : r.Keeps content groups)

include h

/-- Writing a group puts it among the groups. -/
theorem Keeps.write_group (d : Described) (ms : List Content) :
    Keeps (r.write (.group d ms)).1 content (putAll [.group d ms] groups).1 ∧
      (r.write (.group d ms)).2 = (putAll [.group d ms] groups).2 := by
  obtain ⟨hdocuments, houtcome⟩ := Collection.upsertAll_spec h.groups_eq [.group d ms]
  exact ⟨⟨h.content_eq, hdocuments, h.content_nodup, nodup_putAll h.groups_nodup _, h.not_isGroup,
    forall_mem_putAll h.isGroup (by simp [IsGroup])⟩, houtcome⟩

/-- Writing an item or container puts what is stored for it among the content. -/
theorem Keeps.write_of_not_isGroup {c : Content} (hc : ¬ c.IsGroup) :
    Keeps (r.write c).1 (putAll c.stored content).1 groups ∧
      (r.write c).2 = (putAll c.stored content).2 := by
  obtain ⟨hdocuments, houtcome⟩ := Collection.upsertAll_spec h.content_eq c.stored
  have hwrite : r.write c = ({ r with content := (r.content.upsertAll c.stored).1 },
      (r.content.upsertAll c.stored).2) := by
    cases c with
    | item i => rfl
    | container about ms => rfl
    | group d ms => exact absurd trivial hc
  rw [hwrite]
  exact ⟨⟨hdocuments, h.groups_eq, nodup_putAll h.content_nodup _, h.groups_nodup,
    forall_mem_putAll h.not_isGroup fun x => not_isGroup_of_mem_stored hc, h.isGroup⟩, houtcome⟩

/-- An item that has been written lies in the list of content, and nothing in front has its uri. -/
theorem Keeps.exists_of_write_item {i : Item} (hok : (r.write (.item i)).2 = .ok ()) :
    ∃ before after, Keeps (r.write (.item i)).1 (before ++ .item i :: after) groups ∧
      ∀ y ∈ before, y.uri ≠ (Content.item i).uri := by
  obtain ⟨hwritten, houtcome⟩ := h.write_of_not_isGroup (c := .item i) id
  obtain ⟨before, after, hput, hbefore, -⟩ := (Content.item i).exists_putInto_eq content
  have hstored : (putAll (Content.item i).stored content).1 = before ++ .item i :: after :=
    (putAll_of_ok (houtcome.symm.trans hok)).trans hput
  exact ⟨before, after, hstored ▸ hwritten, hbefore⟩

end

/-- A write puts a run of content into one of the two lists. -/
theorem Keeps.exists_write {r : Repository} {content groups : List Content}
    (h : r.Keeps content groups) (c : Content) :
    ∃ cs gs, Keeps (r.write c).1 (putAll cs content).1 (putAll gs groups).1 := by
  cases c with
  | group d ms => exact ⟨[], [.group d ms], (h.write_group d ms).1⟩
  | item i => exact ⟨_, [], (h.write_of_not_isGroup (c := .item i) id).1⟩
  | container about ms => exact ⟨_, [], (h.write_of_not_isGroup (c := .container about ms) id).1⟩

/-- Every repository that comes about by writing keeps two lists of content. -/
theorem Reachable.exists_keeps {r : Repository} (h : r.Reachable) :
    ∃ content groups, r.Keeps content groups := by
  induction h with
  | empty => exact ⟨[], [], keeps_empty⟩
  | write c _ ih =>
    obtain ⟨content, groups, hkeeps⟩ := ih
    obtain ⟨cs, gs, hwritten⟩ := hkeeps.exists_write c
    exact ⟨_, _, hwritten⟩

/-- Every stored document is that of some content, and groups are apart. -/
theorem Reachable.isSorted {r : Repository} (h : r.Reachable) : r.IsSorted := by
  obtain ⟨content, groups, hkeeps⟩ := h.exists_keeps
  constructor
  · intro x hx
    rw [hkeeps.content_eq] at hx
    obtain ⟨c, hc, rfl⟩ := List.mem_map.1 hx
    exact ⟨c, hkeeps.not_isGroup c hc, rfl⟩
  · intro x hx
    rw [hkeeps.groups_eq] at hx
    obtain ⟨c, hc, rfl⟩ := List.mem_map.1 hx
    exact ⟨c, hkeeps.isGroup c hc, rfl⟩

/-! ## A write that fails -/

/-- **What a write that fails leaves behind.** An item and a group are written or not at all. Of a
container the items before the one that is refused have been stored, all of them if the container
itself is refused; the refusal changes nothing. -/
theorem write_error {r : Repository} (hr : r.Reachable) {c : Content} {e : RepositoryError}
    (h : (r.write c).2 = .error e) :
    ((∀ about members, c ≠ .container about members) →
        (r.write c).1.content.documents = r.content.documents ∧
          (r.write c).1.groups.documents = r.groups.documents) ∧
      ∀ about members, c = .container about members →
        (r.write c).1.groups.documents = r.groups.documents ∧
        ∃ stored refused rest,
          members.filterMap (·.asMemberOf? about.described.canonicalUri) ++ [c] =
              stored ++ refused :: rest ∧
            (r.content.upsertAll stored).2 = .ok () ∧
            ((r.content.upsertAll stored).1.upsert refused).2 = .error e ∧
            (r.write c).1.content.documents = (r.content.upsertAll stored).1.documents := by
  obtain ⟨content, groups, hkeeps⟩ := hr.exists_keeps
  cases c with
  | item i =>
    have hitem : (r.content.upsertAll [.item i]).2 = .error e := h
    have hdocuments := Collection.documents_upsertAll_singleton hkeeps.content_eq hitem
    exact ⟨fun _ => ⟨hdocuments, rfl⟩, by simp⟩
  | group d ms =>
    have hgroup : (r.groups.upsertAll [.group d ms]).2 = .error e := h
    have hdocuments := Collection.documents_upsertAll_singleton hkeeps.groups_eq hgroup
    exact ⟨fun _ => ⟨rfl, hdocuments⟩, by simp⟩
  | container about ms =>
    refine ⟨fun hnot => absurd rfl (hnot about ms), ?_⟩
    rintro about members hc
    cases hc
    exact ⟨rfl, Collection.exists_of_upsertAll_error hkeeps.content_eq h⟩

/-- The repository after content has been written, one piece after another. -/
def afterWriting (cs : List Content) : Repository :=
  cs.foldl (fun r c => (r.write c).1) {}

/-- Writing content one piece after another comes about from the empty repository. -/
theorem reachable_afterWriting (cs : List Content) : (afterWriting cs).Reachable := by
  have hfoldl : ∀ r : Repository, r.Reachable → (cs.foldl (fun r c => (r.write c).1) r).Reachable := by
    induction cs with
    | nil => exact fun r hr => hr
    | cons c cs ih => exact fun r hr => ih _ (.write c hr)
  exact hfoldl {} .empty

/-- An episode of the brand, of some title. -/
def episodeTitled (title : String) : Item :=
  { described := { canonicalUri := "/episode", title := some title }, kind := .episode,
    container := some "/brand" }

/-- A brand of some members. -/
def brandOf (members : List Content) : Content :=
  .container { described := { canonicalUri := "/brand" }, kind := .brand } members

/-- A brand with one episode. -/
def pilotBrand : Content :=
  brandOf [.item (episodeTitled "Pilot")]

/-- An item of some uri, with a publisher if one is given. -/
def itemAt (uri : String) (publisher : Option Publisher := none) : Content :=
  .item { described := { canonicalUri := uri, publisher := publisher } }

/-- An item may not take the place of a brand, and then nothing is written. A brand may not take the
place of an item, and then its episode has been. -/
theorem write_error_at_brand :
    (((afterWriting [brandOf []]).write (itemAt "/brand")).2 =
          .error (.kindConflict "/brand" "Brand" "Item") ∧
        ((afterWriting [brandOf []]).write (itemAt "/brand")).1.content.documents =
          (afterWriting [brandOf []]).content.documents) ∧
      ((afterWriting [itemAt "/brand"]).write pilotBrand).2 =
          .error (.kindConflict "/brand" "Item" "Brand") ∧
        ∃ stored refused rest,
          [.item (episodeTitled "Pilot"), pilotBrand] = stored ++ refused :: rest ∧
            ((afterWriting [itemAt "/brand"]).content.upsertAll stored).2 = .ok () ∧
            ((afterWriting [itemAt "/brand"]).write pilotBrand).1.content.documents =
              ((afterWriting [itemAt "/brand"]).content.upsertAll stored).1.documents := by
  have hitem : ((afterWriting [brandOf []]).write (itemAt "/brand")).2 =
      .error (.kindConflict "/brand" "Brand" "Item") := rfl
  have hbrand : ((afterWriting [itemAt "/brand"]).write pilotBrand).2 =
      .error (.kindConflict "/brand" "Item" "Brand") := rfl
  obtain ⟨hkept, -⟩ := write_error (reachable_afterWriting _) hitem
  obtain ⟨hdocuments, -⟩ := hkept (by simp [itemAt])
  obtain ⟨-, hstored⟩ := write_error (reachable_afterWriting _) hbrand
  obtain ⟨-, stored, refused, rest, hsplit, hok, -, hwritten⟩ := hstored _ _ rfl
  exact ⟨⟨hitem, hdocuments⟩, hbrand, stored, refused, rest, hsplit, hok, hwritten⟩

/-- A brand that is refused leaves its episode behind. -/
theorem write_brand_not_allOrNothing :
    (afterWriting [itemAt "/brand"]).Reachable ∧
      ((afterWriting [itemAt "/brand"]).write pilotBrand).2 =
        .error (.kindConflict "/brand" "Item" "Brand") ∧
      ((afterWriting [itemAt "/brand"]).write pilotBrand).1.content.documents =
        (afterWriting [itemAt "/brand"]).content.documents ++
          [(Content.item (episodeTitled "Pilot")).toDocument] ∧
      ((afterWriting [itemAt "/brand"]).write pilotBrand).1.content.documents ≠
        (afterWriting [itemAt "/brand"]).content.documents := by
  have hdocuments : ((afterWriting [itemAt "/brand"]).write pilotBrand).1.content.documents =
      (afterWriting [itemAt "/brand"]).content.documents ++
        [(Content.item (episodeTitled "Pilot")).toDocument] := rfl
  refine ⟨reachable_afterWriting _, rfl, hdocuments, ?_⟩
  rw [hdocuments, Ne, List.append_right_eq_self]
  exact List.cons_ne_nil _ _

end Repository

end MediaCatalogue
