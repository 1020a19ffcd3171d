import MediaCatalogue.Content.Json
import MediaCatalogue.Proofs.Json.Structure

/-!
# Content and its JSON

Content of any shape is read back from its JSON. On the way down each structure is read from its own
members, whose names are all different: those of the form, of what is said of all content and of the
piece itself lie side by side in one object, and no two of them are the same. The members of a
container or group are read by the same rule again, as parts.
-/

set_option autoImplicit false

namespace MediaCatalogue

open Json

/-! ## Vocabularies -/

namespace Vocabulary

/-- Each publisher is found by its own key. -/
theorem isExact_publisher : IsExact Publisher := by
  intro p
  cases p <;> decide

/-- Each means of transport is found by its own key. -/
theorem isExact_transportType : IsExact TransportType := by
  intro t
  cases t <;> decide

/-- Each kind of media is found by its own key. -/
theorem isExact_mediaType : IsExact MediaType := by
  intro m
  cases m <;> decide

/-- Each kind of item is found by its own key. -/
theorem isExact_itemKind : IsExact ItemKind := by
  intro k
  cases k <;> decide

/-- Each kind of container is found by its own key. -/
theorem isExact_containerKind : IsExact ContainerKind := by
  intro k
  cases k <;> decide

end Vocabulary

/-! ## Versions and what is beneath them -/

/-- A policy is read back from its JSON. -/
theorem Policy.readsBack : ReadsBack ofJson? toJson := by
  refine ⟨fun p => ?_, fun _ => Json.noConfusion⟩
  obtain ⟨hfields, h⟩ := structure_spec (by simp) (rfl : p.toJson = .object _)
  simp only [Holds, List.forall_mem_cons] at h
  obtain ⟨hcountries, hstart, hend, -⟩ := h
  rw [ofJson?, hfields]
  simp only [bind, Option.bind_some]
  rw [withDefault?_eq readsBack_textSet _ hcountries, optional?_eq readsBack_instant hstart,
    optional?_eq readsBack_instant hend]
  rfl

/-- A location is read back from its JSON, on its own or as a part. -/
theorem Location.readsBack (placement : Placement) : ReadsBack (ofJson? placement) toJson := by
  refine ⟨fun l => ?_, fun _ => Json.noConfusion⟩
  obtain ⟨hfields, h⟩ := structure_spec (by simp) (rfl : l.toJson = .object _)
  simp only [Holds, List.forall_mem_cons] at h
  obtain ⟨huri, havailable, htransport, hpolicy, -⟩ := h
  rw [ofJson?, hfields]
  simp only [bind, Option.bind_some]
  rw [optional?_eq readsBack_string huri, withDefault?_eq readsBack_bool _ havailable,
    optional?_eq (readsBack_keyed Vocabulary.isExact_transportType placement) htransport,
    optional?_eq Policy.readsBack hpolicy]
  rfl

/-- An encoding is read back from its JSON, since its locations are. -/
theorem Encoding.readsBack (placement : Placement) : ReadsBack (ofJson? placement) toJson := by
  refine ⟨fun e => ?_, fun _ => Json.noConfusion⟩
  obtain ⟨hfields, h⟩ := structure_spec (by simp) (rfl : e.toJson = .object _)
  simp only [Holds, List.forall_mem_cons] at h
  obtain ⟨hformat, hrate, hvideo, haudio, hlocations, -⟩ := h
  rw [ofJson?, hfields]
  simp only [bind, Option.bind_some]
  rw [optional?_eq readsBack_string hformat, optional?_eq readsBack_int64 hrate,
    optional?_eq readsBack_string hvideo, optional?_eq readsBack_string haudio,
    withDefault?_eq (Location.readsBack placement).list _ hlocations]
  rfl

/-- A broadcast is read back from its JSON. -/
theorem Broadcast.readsBack : ReadsBack ofJson? toJson := by
  refine ⟨fun b => ?_, fun _ => Json.noConfusion⟩
  obtain ⟨hfields, h⟩ := structure_spec (by simp) (rfl : b.toJson = .object _)
  simp only [Holds, List.forall_mem_cons] at h
  obtain ⟨hchannel, hstart, hend, hrepeat, hid, -⟩ := h
  rw [ofJson?, hfields]
  simp only [bind, Option.bind_some]
  rw [required?_eq readsBack_string hchannel, required?_eq readsBack_instant hstart,
    required?_eq readsBack_instant hend, optional?_eq readsBack_bool hrepeat,
    optional?_eq readsBack_string hid]
  rfl

/-- A version is read back from its JSON, since its broadcasts and encodings are. -/
theorem Version.readsBack (placement : Placement) : ReadsBack (ofJson? placement) toJson := by
  refine ⟨fun v => ?_, fun _ => Json.noConfusion⟩
  obtain ⟨hfields, h⟩ := structure_spec (by simp) (rfl : v.toJson = .object _)
  simp only [Holds, List.forall_mem_cons] at h
  obtain ⟨huri, hduration, hpublished, hbroadcasts, hencodings, -⟩ := h
  rw [ofJson?, hfields]
  simp only [bind, Option.bind_some]
  rw [optional?_eq readsBack_string huri, optional?_eq readsBack_int64 hduration,
    optional?_eq readsBack_int64 hpublished, withDefault?_eq Broadcast.readsBack.list _ hbroadcasts,
    withDefault?_eq (Encoding.readsBack placement).list _ hencodings]
  rfl

/-! ## Pieces of content without their members -/

/-- What is said of content is read back from members that hold it, whatever else they hold. -/
theorem Described.ofMembers?_eq {d : Described} {fields : List (String × Json)}
    (h : Holds d.toMembers fields) : ofMembers? fields = some d := by
  simp only [Holds, toMembers, List.forall_mem_cons] at h
  obtain ⟨huri, hcurie, haliases, htitle, hdescription, hpublisher, hgenres, htags, hmedia, hupdated, -⟩ := h
  rw [ofMembers?, withDefault?_eq readsBack_string _ huri, optional?_eq readsBack_string hcurie,
    withDefault?_eq readsBack_textSet _ haliases, optional?_eq readsBack_string htitle,
    optional?_eq readsBack_string hdescription,
    optional?_eq (readsBack_keyed Vocabulary.isExact_publisher .part) hpublisher,
    withDefault?_eq readsBack_textSet _ hgenres, withDefault?_eq readsBack_textSet _ htags,
    optional?_eq (readsBack_keyed Vocabulary.isExact_mediaType .part) hmedia,
    optional?_eq readsBack_instant hupdated]
  rfl

section

variable {fields : List (String × Json)} (hnodup : (fields.map Prod.fst).Nodup) (placement : Placement)

include hnodup

/-- An item is read back from an object that holds its members. -/
theorem Item.ofJson?_eq {i : Item} (h : Holds i.toMembers fields) :
    ofJson? placement (.object fields) = some i := by
  obtain ⟨hdescribed, hown⟩ := h.append
  simp only [Holds, List.forall_mem_cons] at hown
  obtain ⟨hkind, hlong, hcontainer, hepisode, hseries, hversions, -⟩ := hown
  rw [ofJson?, uniqueMembers?_object hnodup]
  simp only [bind, Option.bind_some]
  rw [Described.ofMembers?_eq hdescribed,
    withDefault?_eq (readsBack_keyed Vocabulary.isExact_itemKind placement) _ hkind,
    withDefault?_eq readsBack_bool _ hlong, optional?_eq readsBack_string hcontainer,
    optional?_eq readsBack_int64 hepisode, optional?_eq readsBack_int64 hseries,
    withDefault?_eq (Version.readsBack placement).list _ hversions]
  rfl

/-- A container, but for its contents, is read back from an object that holds its members. -/
theorem Container.ofJson?_eq {c : Container} {contents : List Json}
    (h : Holds (c.toMembers contents) fields) : ofJson? placement (.object fields) = some c := by
  obtain ⟨hdescribed, hown⟩ := h.append
  simp only [Holds, List.forall_mem_cons] at hown
  obtain ⟨hkind, hseries, -⟩ := hown
  rw [ofJson?, uniqueMembers?_object hnodup]
  simp only [bind, Option.bind_some]
  rw [Described.ofMembers?_eq hdescribed,
    withDefault?_eq (readsBack_keyed Vocabulary.isExact_containerKind placement) _ hkind,
    optional?_eq readsBack_int64 hseries]
  rfl

/-- What is said of a group is read back from an object that holds its members. -/
theorem Described.ofGroupJson?_eq {d : Described} {contents : List Json}
    (h : Holds (d.toGroupMembers contents) fields) : ofGroupJson? (.object fields) = some d := by
  rw [ofGroupJson?, uniqueMembers?_object hnodup]
  exact Described.ofMembers?_eq h.append.1

end

/-! ## Content -/

namespace Content

/-- The members of the object that is written for content. -/
def toMembers : Content → List (String × Json)
  | .item i => ("entity", .string "item") :: i.toMembers
  | .container c ms => ("entity", .string "container") :: c.toMembers (allToJson ms)
  | .group d ms => ("entity", .string "group") :: d.toGroupMembers (allToJson ms)

/-- Content is written as the object of its members. -/
theorem toJson_eq (c : Content) : c.toJson = .object c.toMembers := by
  cases c <;> rfl

/-- No two members have the same name. -/
theorem nodup_toMembers (c : Content) : (c.toMembers.map Prod.fst).Nodup := by
  cases c <;>
    simp [toMembers, Item.toMembers, Container.toMembers, Described.toGroupMembers, Described.toMembers]

/-- Whether content is an item, a container or a group. -/
def form : Content → Form
  | .item _ => .item
  | .container _ _ => .container
  | .group _ _ => .group

/-- The form is read back from the members. -/
theorem required?_form (c : Content) (placement : Placement) :
    required? "entity" (form? placement) c.toMembers = some c.form := by
  cases c <;> rfl

/-- Content is read back when its members are. -/
theorem ofJsonWith?_eq {c : Content} (placement : Placement) {contents : Unit → Option (List Content)}
    (hcontents : contents () = some c.members) :
    ofJsonWith? placement contents (.object c.toMembers) = some c := by
  have hnodup := c.nodup_toMembers
  have h := holds_self hnodup
  rw [ofJsonWith?, uniqueMembers?_object hnodup]
  simp only [bind, Option.bind_some, required?_form]
  -- the form stands first, the rest is what the form has
  cases c with
  | item i =>
    have hrest : Holds i.toMembers (item i).toMembers := (List.forall_mem_cons.1 h).2
    simp only [form, Item.ofJson?_eq hnodup .part hrest]
    rfl
  | container c ms =>
    have hrest : Holds (c.toMembers (allToJson ms)) (container c ms).toMembers := (List.forall_mem_cons.1 h).2
    simp only [form, Container.ofJson?_eq hnodup .part hrest, hcontents]
    rfl
  | group d ms =>
    have hrest : Holds (d.toGroupMembers (allToJson ms)) (group d ms).toMembers := (List.forall_mem_cons.1 h).2
    simp only [form, Described.ofGroupJson?_eq hnodup hrest, hcontents]
    rfl

/-- The contents are read from the member of that name; there are none without it. -/
theorem contentsOfMembers?_eq (placement : Placement) (fields : List (String × Json)) :
    contentsOfMembers? placement fields =
      match Fields.get? "contents" fields with
      | none => some []
      | some j => contentsOfJson? placement j := by
  induction fields with
  | nil => rw [contentsOfMembers?, Fields.get?_nil]
  | cons f rest ih =>
    obtain ⟨name, j⟩ := f
    rw [contentsOfMembers?, Fields.get?]
    split
    · rfl
    · exact ih

/-- The contents of a container or group stand under one name, which an item does not have. -/
theorem contentsOfMembers?_toMembers {c : Content}
    (h : allOfJson? .part (allToJson c.members) = some c.members) :
    contentsOfMembers? .part c.toMembers = some c.members := by
  rw [contentsOfMembers?_eq]
  cases c with
  | item i => simp [toMembers, Item.toMembers, Described.toMembers, Fields.get?, members]
  | container c ms =>
    simpa [toMembers, Container.toMembers, Described.toMembers, Fields.get?, contentsOfJson?,
      members] using h
  | group d ms =>
    simpa [toMembers, Described.toGroupMembers, Described.toMembers, Fields.get?, contentsOfJson?,
      members] using h

mutual

/-- Content is read back from its JSON, on its own or as a part. -/
theorem ofJson?_toJson : ∀ (c : Content) (placement : Placement), ofJson? placement c.toJson = some c
  | .item i, placement => by
    rw [toJson_eq, ofJson?]
    exact ofJsonWith?_eq placement (contentsOfMembers?_toMembers rfl)
  | .container c ms, placement => by
    rw [toJson_eq, ofJson?]
    exact ofJsonWith?_eq placement (contentsOfMembers?_toMembers (allOfJson?_allToJson ms .part))
  | .group d ms, placement => by
    rw [toJson_eq, ofJson?]
    exact ofJsonWith?_eq placement (contentsOfMembers?_toMembers (allOfJson?_allToJson ms .part))

/-- Content is read back one after another. -/
theorem allOfJson?_allToJson : ∀ (cs : List Content) (placement : Placement),
    allOfJson? placement (allToJson cs) = some cs
  | [], _ => rfl
  | c :: cs, placement => by
    rw [allToJson, allOfJson?, ofJson?_toJson c placement]
    simp only [allOfJson?_allToJson cs placement, Option.map_some]

end

end Content

end MediaCatalogue
