import Mathlib.Data.List.Nodup
import MediaCatalogue.Proofs.Repository.Writing

/-!
# What holds of every repository

Whatever is written, and whatever comes of each write, every document is that of some content and may
be stored, each canonical uri is that of one document of a collection, and groups are apart from items
and containers. What has been stored under a uri is replaced but never lost, and only by its like: no
item becomes a container, and no container an item.

All this is said of the lists of content that the two collections hold. Putting in one piece of content
that is not refused keeps it, so a run of them does, so a write does, and so do writes one after
another.
-/

set_option autoImplicit false

namespace MediaCatalogue

/-! ## Items and containers by their types -/

/-- The document is stored as an item of some kind. -/
def Document.IsItem (d : Document) : Prop :=
  ∃ k : ItemKind, d.typeName = k.typeName

/-- The document is stored as a container of some kind. -/
def Document.IsContainer (d : Document) : Prop :=
  ∃ k : ContainerKind, d.typeName = k.typeName

/-- A type is read as a kind of item when it is the name of one. -/
theorem ItemKind.isSome_ofTypeName?_iff (name : String) :
    (ofTypeName? name).isSome = true ↔ ∃ k : ItemKind, name = k.typeName := by
  constructor
  · intro h
    obtain ⟨k, hk⟩ := Option.isSome_iff_exists.1 h
    have hname : k.typeName = name := by simpa using List.find?_some hk
    exact ⟨k, hname.symm⟩
  · rintro ⟨k, rfl⟩
    rw [k.ofTypeName?_typeName, Option.isSome_some]

/-- A type is read as a kind of container when it is the name of one. -/
theorem ContainerKind.isSome_ofTypeName?_iff (name : String) :
    (ofTypeName? name).isSome = true ↔ ∃ k : ContainerKind, name = k.typeName := by
  constructor
  · intro h
    obtain ⟨k, hk⟩ := Option.isSome_iff_exists.1 h
    have hname : k.typeName = name := by simpa using List.find?_some hk
    exact ⟨k, hname.symm⟩
  · rintro ⟨k, rfl⟩
    rw [k.ofTypeName?_typeName, Option.isSome_some]

namespace Category

/-- The types in the category of items are the names of kinds of item. -/
theorem ofTypeName_eq_item_iff (name : String) :
    ofTypeName name = .item ↔ ∃ k : ItemKind, name = k.typeName := by
  rw [← ItemKind.isSome_ofTypeName?_iff, ofTypeName]
  split
  · rename_i hitem
    simp [hitem]
  · rename_i hitem
    split <;> simp [hitem]

/-- The types in the category of containers are the names of kinds of container. -/
theorem ofTypeName_eq_container_iff (name : String) :
    ofTypeName name = .container ↔ ∃ k : ContainerKind, name = k.typeName := by
  constructor
  · intro h
    rw [ofTypeName] at h
    split at h
    · cases h
    · split at h
      · exact (ContainerKind.isSome_ofTypeName?_iff name).1 ‹_›
      · cases h
  · rintro ⟨k, rfl⟩
    rw [ofTypeName, ItemKind.ofTypeName?_container, k.ofTypeName?_typeName]
    rfl

end Category

namespace Content

/-- The document of content is stored as an item when the content is of that category. -/
theorem isItem_toDocument_iff (c : Content) : c.toDocument.IsItem ↔ c.category = .item := by
  rw [Document.IsItem, typeName_toDocument, category, Category.ofTypeName_eq_item_iff]

/-- The document of content is stored as a container when the content is of that category. -/
theorem isContainer_toDocument_iff (c : Content) :
    c.toDocument.IsContainer ↔ c.category = .container := by
  rw [Document.IsContainer, typeName_toDocument, category, Category.ofTypeName_eq_container_iff]

/-- Content of the category of an item or container is one as well, and not the other. -/
theorem isItem_and_isContainer_of_category_eq {a b : Content} (h : b.category = a.category) :
    (a.toDocument.IsItem → b.toDocument.IsItem ∧ ¬ b.toDocument.IsContainer) ∧
      (a.toDocument.IsContainer → b.toDocument.IsContainer ∧ ¬ b.toDocument.IsItem) := by
  rw [isItem_toDocument_iff, isItem_toDocument_iff, isContainer_toDocument_iff,
    isContainer_toDocument_iff, h]
  constructor
  · intro hitem
    exact ⟨hitem, by simp [hitem]⟩
  · intro hcontainer
    exact ⟨hcontainer, by simp [hcontainer]⟩

/-! ## Lists of content that follow one another -/

/-- Of two lists of content the second comes after the first: every uri is still there, with content
of its category, and what has come in may be stored. -/
structure GrowsInto (kept later : List Content) : Prop where
  lasting : ∀ x ∈ kept, ∃ y ∈ later, y.uri = x.uri ∧ y.category = x.category
  storable : ∀ y ∈ later, y ∈ kept ∨ y.toDocument.validate = .ok ()

/-- A list of content comes after itself. -/
theorem GrowsInto.refl (kept : List Content) : GrowsInto kept kept :=
  ⟨fun x hx => ⟨x, hx, rfl, rfl⟩, fun _ hy => .inl hy⟩

/-- What comes after a list that comes after another comes after that. -/
theorem GrowsInto.trans {kept middle later : List Content} (h : GrowsInto kept middle)
    (h' : GrowsInto middle later) : GrowsInto kept later := by
  constructor
  · intro x hx
    obtain ⟨y, hy, huri, hcategory⟩ := h.lasting x hx
    obtain ⟨z, hz, huri', hcategory'⟩ := h'.lasting y hy
    exact ⟨z, hz, huri'.trans huri, hcategory'.trans hcategory⟩
  · intro z hz
    rcases h'.storable z hz with hz | hvalid
    · exact h.storable z hz
    · exact .inr hvalid

/-- Where each uri is that of one piece of content only, what a uri is the uri of keeps its category. -/
theorem GrowsInto.category_eq {kept later : List Content} (h : GrowsInto kept later)
    (hnodup : (later.map uri).Nodup) {a b : Content} (ha : a ∈ kept) (hb : b ∈ later)
    (huri : b.uri = a.uri) : b.category = a.category := by
  obtain ⟨b', hb', huri', hcategory⟩ := h.lasting a ha
  obtain rfl : b = b' := List.inj_on_of_nodup_map hnodup hb hb' (huri.trans huri'.symm)
  exact hcategory

/-- What has come in where nothing was may be stored. -/
theorem GrowsInto.validate_eq_ok {later : List Content} (h : GrowsInto [] later) :
    ∀ x ∈ later, x.toDocument.validate = .ok () := by
  intro x hx
  exact (h.storable x hx).resolve_left List.not_mem_nil

section

variable {c : Content} {kept : List Content}

/-- Content that is not refused may be stored, and what it takes the place of is of its category. -/
theorem of_refusal?_eq_none (h : c.refusal? kept = none) :
    c.toDocument.validate = .ok () ∧
      ∀ x, kept.find? (fun x => x.uri == c.uri) = some x → x.category = c.category := by
  rw [refusal?] at h
  split at h
  · cases h
  · cases h
  · rename_i hconflict hvalid
    refine ⟨hvalid, ?_⟩
    intro x hx
    rw [hx, Option.bind_some, conflict?] at hconflict
    split at hconflict
    · assumption
    · cases hconflict

/-- The step: content is put in where its like was, or where nothing was. -/
theorem growsInto_putInto (h : c.refusal? kept = none) : GrowsInto kept (c.putInto kept) := by
  obtain ⟨hvalid, hcategory⟩ := of_refusal?_eq_none h
  constructor
  · intro x hx
    obtain ⟨before, after, hput, hbefore, ⟨rfl, rfl⟩ | ⟨old, hold, rfl⟩⟩ := c.exists_putInto_eq kept
    · rw [hput]
      exact ⟨x, List.mem_append_left _ hx, rfl, rfl⟩
    · rw [hput]
      rcases List.mem_append.1 hx with hx | hx
      · exact ⟨x, List.mem_append_left _ hx, rfl, rfl⟩
      · rcases List.mem_cons.1 hx with rfl | hx
        · have hfind : (before ++ x :: after).find? (fun y => y.uri == c.uri) = some x := by
            rw [List.find?_eq_some_iff_append]
            exact ⟨by simpa using hold, before, after, rfl, by simpa using hbefore⟩
          exact ⟨c, by simp, hold.symm, (hcategory x hfind).symm⟩
        · exact ⟨x, by simp [hx], rfl, rfl⟩
  · intro y hy
    rcases c.mem_putInto hy with rfl | hy
    · exact .inr hvalid
    · exact .inl hy

/-- The run: what one step keeps, all of them keep, also when the run ends early. -/
theorem growsInto_putAll (cs kept : List Content) : GrowsInto kept (putAll cs kept).1 := by
  refine putAll_induction (GrowsInto.refl kept) ?_
  intro c _ middle hrefusal hgrown
  exact hgrown.trans (growsInto_putInto hrefusal)

end

end Content

open Content

/-! ## Collections and repositories -/

/-- Every document of the collection is that of some content of a sort and may be stored, and no two
documents have one canonical uri. -/
structure Collection.IsConsistent (P : Content → Prop) (c : Collection) : Prop where
  nodup : (c.documents.map fun d => Fields.get? "canonicalUri" d.fields).Nodup
  isStored : ∀ d ∈ c.documents,
    d.validate = .ok () ∧ ∃ content, P content ∧ d = content.toDocument

/-- A collection of the documents of content that may be stored, each uri once, is consistent. -/
theorem Collection.isConsistent_of_eq {c : Collection} {kept : List Content} {P : Content → Prop}
    (h : c.documents = kept.map toDocument) (hnodup : (kept.map uri).Nodup)
    (hP : ∀ x ∈ kept, P x) (hvalid : ∀ x ∈ kept, x.toDocument.validate = .ok ()) :
    c.IsConsistent P := by
  constructor
  · have huris : (c.documents.map fun d => Fields.get? "canonicalUri" d.fields) =
        (kept.map uri).map fun u => some (.string u) := by
      rw [h, List.map_map, List.map_map]
      exact List.map_congr_left fun x _ => x.get?_canonicalUri
    rw [huris]
    refine List.Nodup.map ?_ hnodup
    intro u v huv
    simpa using huv
  · intro d hd
    rw [h] at hd
    obtain ⟨x, hx, rfl⟩ := List.mem_map.1 hd
    exact ⟨hvalid x hx, x, hP x hx, rfl⟩

namespace Repository

/-- Writing one piece after another makes both lists of content grow. -/
theorem Keeps.exists_foldl_write {r : Repository} {content groups : List Content}
    (h : r.Keeps content groups) (cs : List Content) :
    ∃ content' groups', Keeps (cs.foldl (fun r c => (r.write c).1) r) content' groups' ∧
      GrowsInto content content' ∧ GrowsInto groups groups' := by
  induction cs generalizing r content groups with
  | nil => exact ⟨content, groups, h, .refl content, .refl groups⟩
  | cons c cs ih =>
    obtain ⟨put, putGroups, hwritten⟩ := h.exists_write c
    obtain ⟨content', groups', hkeeps, hcontent, hgroups⟩ := ih hwritten
    exact ⟨content', groups', hkeeps, (growsInto_putAll put content).trans hcontent,
      (growsInto_putAll putGroups groups).trans hgroups⟩

/-- **The invariant of repositories.** After any writes both collections are consistent, and whatever
is written later, a uri under which an item is stored is one of an item, and one of a container one of
a container. -/
theorem isConsistent_afterWriting (before later : List Content) :
    (afterWriting before).content.IsConsistent (fun c => ¬ c.IsGroup) ∧
      (afterWriting before).groups.IsConsistent IsGroup ∧
      ∀ x ∈ (afterWriting before).content.documents,
        (∃ y ∈ (afterWriting (before ++ later)).content.documents,
          Fields.get? "canonicalUri" y.fields = Fields.get? "canonicalUri" x.fields) ∧
        ∀ y ∈ (afterWriting (before ++ later)).content.documents,
          Fields.get? "canonicalUri" y.fields = Fields.get? "canonicalUri" x.fields →
            (x.IsItem → y.IsItem ∧ ¬ y.IsContainer) ∧
              (x.IsContainer → y.IsContainer ∧ ¬ y.IsItem) := by
  obtain ⟨content, groups, hkeeps, hcontent, hgroups⟩ := keeps_empty.exists_foldl_write before
  obtain ⟨content', groups', hkeeps', hlater, -⟩ := hkeeps.exists_foldl_write later
  rw [← List.foldl_append] at hkeeps'
  have hdocuments : (afterWriting before).content.documents = content.map toDocument :=
    hkeeps.content_eq
  have hdocuments' : (afterWriting (before ++ later)).content.documents = content'.map toDocument :=
    hkeeps'.content_eq
  refine ⟨Collection.isConsistent_of_eq hdocuments hkeeps.content_nodup hkeeps.not_isGroup
      hcontent.validate_eq_ok,
    Collection.isConsistent_of_eq hkeeps.groups_eq hkeeps.groups_nodup hkeeps.isGroup
      hgroups.validate_eq_ok, ?_⟩
  rw [hdocuments, hdocuments']
  intro x hx
  obtain ⟨a, ha, rfl⟩ := List.mem_map.1 hx
  constructor
  · obtain ⟨b, hb, huri, -⟩ := hlater.lasting a ha
    refine ⟨b.toDocument, List.mem_map_of_mem hb, ?_⟩
    rw [b.get?_canonicalUri, a.get?_canonicalUri, huri]
  · intro y hy hsame
    obtain ⟨b, hb, rfl⟩ := List.mem_map.1 hy
    have huri : b.uri = a.uri := by
      rw [b.get?_canonicalUri, a.get?_canonicalUri] at hsame
      simpa using hsame
    exact isItem_and_isContainer_of_category_eq
      (hlater.category_eq hkeeps'.content_nodup ha hb huri)

/-- An item stays one when a brand is written under its uri, which stores the episode of the brand and
then fails. -/
theorem isConsistent_afterWriting_pilotBrand :
    (afterWriting [itemAt "/brand", pilotBrand]).content.IsConsistent (fun c => ¬ c.IsGroup) ∧
      (itemAt "/brand").toDocument.IsItem ∧
      (itemAt "/brand").toDocument ∈ (afterWriting [itemAt "/brand"]).content.documents ∧
      ∀ y ∈ (afterWriting [itemAt "/brand", pilotBrand]).content.documents,
        Fields.get? "canonicalUri" y.fields = some (.string "/brand") →
          y.IsItem ∧ ¬ y.IsContainer := by
  have hitem : (itemAt "/brand").toDocument.IsItem := ⟨.item, rfl⟩
  have hstored : (itemAt "/brand").toDocument ∈
      (afterWriting [itemAt "/brand"]).content.documents := List.mem_singleton_self _
  obtain ⟨hconsistent, -, -⟩ := isConsistent_afterWriting [itemAt "/brand", pilotBrand] []
  obtain ⟨-, -, hlater⟩ := isConsistent_afterWriting [itemAt "/brand"] [pilotBrand]
  obtain ⟨-, hsame⟩ := hlater _ hstored
  have hown : Fields.get? "canonicalUri" (itemAt "/brand").toDocument.fields =
      some (.string "/brand") := get?_canonicalUri (itemAt "/brand")
  refine ⟨hconsistent, hitem, hstored, ?_⟩
  intro y hy huri
  exact (hsame y hy (huri.trans hown.symm)).1 hitem

end Repository

end MediaCatalogue
