import MediaCatalogue.Proofs.Query.Compilation

/-!
# What a compiled query asks of nested entities

The filter documents of the nested places are put into one another as conditions on elements, along
paths that lead through the stored lists. This file says what that comes to on a document of
content: which of its versions, broadcasts, encodings and locations have to be found. What is asked
for at each place is kept apart from how it is asked, as `Needs`, so that the same description
serves for filter documents and for the constraints they were made from.
-/

set_option autoImplicit false

namespace MediaCatalogue

/-- The versions of content: only items have any. -/
def Content.versions : Content → List Version
  | .item i => i.versions
  | .container _ _ => []
  | .group _ _ => []

/-! ## What is asked for at each place -/

/-- What is asked of an entity at each nested place, if anything is asked for there. -/
structure Needs where
  versions : Option (Version → Prop)
  broadcasts : Option (Broadcast → Prop)
  encodings : Option (Encoding → Prop)
  locations : Option (Location → Prop)

namespace Needs

/-- A version has a broadcast that is asked for, if one is. -/
def BroadcastIn (n : Needs) (v : Version) : Prop :=
  ∀ B ∈ n.broadcasts, ∃ b ∈ v.broadcasts, B b

/-- An encoding has a location that is asked for, if one is. -/
def LocationIn (n : Needs) (e : Encoding) : Prop :=
  ∀ L ∈ n.locations, ∃ l ∈ e.availableAt, L l

/-- A version has an encoding that is asked for, with a location that is asked for, if one of them
is. -/
def EncodingIn (n : Needs) (v : Version) : Prop :=
  n.encodings.isSome = true ∨ n.locations.isSome = true →
    ∃ e ∈ v.manifestedAs, (∀ E ∈ n.encodings, E e) ∧ n.LocationIn e

/-- What is asked for is found in some versions: in one version, if something is asked of versions;
otherwise the broadcast and the encoding that are asked for may be those of different versions. -/
def FoundIn (n : Needs) (vs : List Version) : Prop :=
  match n.versions with
  | some V => ∃ v ∈ vs, V v ∧ n.BroadcastIn v ∧ n.EncodingIn v
  | none =>
    (n.broadcasts.isSome = true → ∃ v ∈ vs, n.BroadcastIn v) ∧
      (n.encodings.isSome = true ∨ n.locations.isSome = true → ∃ v ∈ vs, n.EncodingIn v)

/-- At each place the one asks for something when the other does, and for no more. -/
structure Imply (m n : Needs) : Prop where
  versions : Option.Rel (fun P Q => ∀ v, P v → Q v) m.versions n.versions
  broadcasts : Option.Rel (fun P Q => ∀ b, P b → Q b) m.broadcasts n.broadcasts
  encodings : Option.Rel (fun P Q => ∀ e, P e → Q e) m.encodings n.encodings
  locations : Option.Rel (fun P Q => ∀ l, P l → Q l) m.locations n.locations

section

variable {α : Type} {o p : Option (α → Prop)} (h : Option.Rel (fun P Q => ∀ a, P a → Q a) o p)

include h

/-- Where one asks for something, so does the other. -/
theorem isSome_eq : o.isSome = p.isSome := by
  cases h <;> rfl

/-- What the weaker of two asks for, the stronger asks for something that implies it. -/
theorem exists_mem_of_rel {Q : α → Prop} (hQ : Q ∈ p) : ∃ P ∈ o, ∀ a, P a → Q a := by
  cases h with
  | some himp =>
    cases hQ
    exact ⟨_, rfl, himp⟩
  | none => cases hQ

end

section

variable {m n : Needs} (h : m.Imply n)

include h

/-- A version with a broadcast for stronger needs has one for weaker needs. -/
theorem BroadcastIn.mono {v : Version} (hv : m.BroadcastIn v) : n.BroadcastIn v := by
  intro B hB
  obtain ⟨P, hP, himp⟩ := exists_mem_of_rel h.broadcasts hB
  exact (hv P hP).imp fun b hb => ⟨hb.1, himp b hb.2⟩

/-- An encoding with a location for stronger needs has one for weaker needs. -/
theorem LocationIn.mono {e : Encoding} (he : m.LocationIn e) : n.LocationIn e := by
  intro L hL
  obtain ⟨P, hP, himp⟩ := exists_mem_of_rel h.locations hL
  exact (he P hP).imp fun l hl => ⟨hl.1, himp l hl.2⟩

/-- A version with an encoding for stronger needs has one for weaker needs. -/
theorem EncodingIn.mono {v : Version} (hv : m.EncodingIn v) : n.EncodingIn v := by
  intro hasked
  rw [← isSome_eq h.encodings, ← isSome_eq h.locations] at hasked
  obtain ⟨e, he, hE, hL⟩ := hv hasked
  refine ⟨e, he, fun E hEn => ?_, LocationIn.mono h hL⟩
  obtain ⟨P, hP, himp⟩ := exists_mem_of_rel h.encodings hEn
  exact himp e (hE P hP)

/-- What asks for less is found where the other is. -/
theorem FoundIn.mono {vs : List Version} (hvs : m.FoundIn vs) : n.FoundIn vs := by
  have hrel := h.versions
  unfold FoundIn at hvs ⊢
  generalize m.versions = o at hrel hvs
  generalize n.versions = p at hrel
  cases hrel with
  | some himp =>
    obtain ⟨v, hv, hV, hB, hE⟩ := hvs
    exact ⟨v, hv, himp v hV, BroadcastIn.mono h hB, EncodingIn.mono h hE⟩
  | none =>
    rw [← isSome_eq h.broadcasts, ← isSome_eq h.encodings, ← isSome_eq h.locations]
    exact ⟨fun hasked => (hvs.1 hasked).imp fun v hv => ⟨hv.1, BroadcastIn.mono h hv.2⟩,
      fun hasked => (hvs.2 hasked).imp fun v hv => ⟨hv.1, EncodingIn.mono h hv.2⟩⟩

end

/-- What filter documents of the nested places ask of the records of entities. -/
def ofFilters (versions broadcasts encodings locations : Option (Fields Value)) : Needs where
  versions := versions.map fun f v => Filter.Accepts f v.toRecord
  broadcasts := broadcasts.map fun f b => Filter.Accepts f b.toRecord
  encodings := encodings.map fun f e => Filter.Accepts f e.toRecord
  locations := locations.map fun f l => Filter.Accepts f l.toRecord

end Needs

section

variable {v b e l : Option (Fields Value)}

/-- With filter documents the broadcast that is asked for is one whose record passes. -/
theorem broadcastIn_ofFilters (x : Version) :
    (Needs.ofFilters v b e l).BroadcastIn x ↔
      ∀ f ∈ b, ∃ y ∈ x.broadcasts, Filter.Accepts f y.toRecord := by
  simp [Needs.BroadcastIn, Needs.ofFilters]

/-- With filter documents the encoding that is asked for is one whose record passes, with a location
whose record passes. -/
theorem encodingIn_ofFilters (x : Version) :
    (Needs.ofFilters v b e l).EncodingIn x ↔
      (e.isSome = true ∨ l.isSome = true →
        ∃ y ∈ x.manifestedAs, (∀ f ∈ e, Filter.Accepts f y.toRecord) ∧
          ∀ f ∈ l, ∃ z ∈ y.availableAt, Filter.Accepts f z.toRecord) := by
  simp [Needs.EncodingIn, Needs.LocationIn, Needs.ofFilters]

/-- Without a filter document of versions, the broadcast and the encoding are each looked for in some
version. -/
theorem foundIn_ofFilters_none (vs : List Version) :
    (Needs.ofFilters none b e l).FoundIn vs ↔
      (b.isSome = true →
        ∃ x ∈ vs, ∀ f ∈ b, ∃ y ∈ x.broadcasts, Filter.Accepts f y.toRecord) ∧
      (e.isSome = true ∨ l.isSome = true → ∃ x ∈ vs, (e.isSome = true ∨ l.isSome = true →
        ∃ y ∈ x.manifestedAs, (∀ f ∈ e, Filter.Accepts f y.toRecord) ∧
          ∀ f ∈ l, ∃ z ∈ y.availableAt, Filter.Accepts f z.toRecord)) := by
  simp only [← broadcastIn_ofFilters (v := none) (b := b) (e := e) (l := l),
    ← encodingIn_ofFilters (v := none) (b := b) (e := e) (l := l)]
  simp [Needs.FoundIn, Needs.ofFilters]

end

/-! ## Paths into a document of content -/

open Record

/-- A document of content holds the records of its versions. -/
theorem Content.get?_versions (c : Content) :
    Fields.get? "versions" c.toDocument.fields = listValue (c.versions.map Version.toRecord) := by
  rw [c.get?_toDocument (by decide)]
  cases c with
  | item i =>
    rw [Content.toRecord, Item.toRecord, get?_ofEntries _ (by simp [Described.toEntries])]
    simp [Described.toEntries, Fields.get?, Content.versions]
  | container c ms =>
    rw [Content.toRecord, Container.toRecord, get?_ofEntries _ (by simp [Described.toEntries])]
    simp [Described.toEntries, Fields.get?, Content.versions, listValue]
  | group d ms =>
    rw [Content.toRecord, Described.toGroupRecord, get?_ofEntries _ (by simp [Described.toEntries])]
    simp [Described.toEntries, Fields.get?, Content.versions, listValue]

/-- The record of a version holds those of its broadcasts. -/
theorem Version.get?_broadcasts (v : Version) :
    Fields.get? "broadcasts" v.toRecord = listValue (v.broadcasts.map Broadcast.toRecord) := by
  rw [Version.toRecord, get?_ofEntries _ (by simp)]
  simp [Fields.get?]

/-- The record of a version holds those of its encodings. -/
theorem Version.get?_manifestedAs (v : Version) :
    Fields.get? "manifestedAs" v.toRecord = listValue (v.manifestedAs.map Encoding.toRecord) := by
  rw [Version.toRecord, get?_ofEntries _ (by simp)]
  simp [Fields.get?]

/-- The record of an encoding holds those of its locations. -/
theorem Encoding.get?_availableAt (e : Encoding) :
    Fields.get? "availableAt" e.toRecord = listValue (e.availableAt.map Location.toRecord) := by
  rw [Encoding.toRecord, get?_ofEntries _ (by simp)]
  simp [Fields.get?]

/-! Along each path, one step after another leads to the records of the entities there. -/

/-- From a document of content, paths go on through the records of all versions together. -/
theorem resolve_versions (c : Content) (rest : List String) :
    Value.resolve ([c.toDocument.fields].filterMap (Fields.get? "versions")) ("broadcasts" :: rest) =
        Value.resolve ((c.versions.map Version.toRecord).filterMap (Fields.get? "broadcasts")) rest ∧
      Value.resolve ([c.toDocument.fields].filterMap (Fields.get? "versions")) ("manifestedAs" :: rest) =
        Value.resolve ((c.versions.map Version.toRecord).filterMap (Fields.get? "manifestedAs")) rest := by
  have hb : arrayIndex? "broadcasts" = none := by decide
  have he : arrayIndex? "manifestedAs" = none := by decide
  have hbroadcasts := resolve_step Content.get?_versions hb rest [c]
  have hencodings := resolve_step Content.get?_versions he rest [c]
  simp only [List.flatMap_cons, List.flatMap_nil, List.append_nil] at hbroadcasts hencodings
  exact ⟨hbroadcasts, hencodings⟩

/-- The path of versions leads to their records. -/
theorem objectsIn_versions (c : Content) :
    Value.objectsIn (Fields.resolve "versions" c.toDocument.fields) =
      c.versions.map Version.toRecord := by
  have hpath : pathSegments "versions" = ["versions"] := by decide
  have hobjects := objectsIn_step Content.get?_versions [c]
  rw [resolve_cons hpath]
  simpa [Value.resolve] using hobjects

/-- The path of broadcasts leads to the records of the broadcasts of all versions. -/
theorem objectsIn_broadcasts (c : Content) :
    Value.objectsIn (Fields.resolve "versions.broadcasts" c.toDocument.fields) =
      c.versions.flatMap fun v => v.broadcasts.map Broadcast.toRecord := by
  have hpath : pathSegments "versions.broadcasts" = ["versions", "broadcasts"] := by decide
  rw [resolve_cons hpath, (resolve_versions c []).1]
  exact objectsIn_step Version.get?_broadcasts c.versions

/-- The path of encodings leads to the records of the encodings of all versions. -/
theorem objectsIn_encodings (c : Content) :
    Value.objectsIn (Fields.resolve "versions.manifestedAs" c.toDocument.fields) =
      c.versions.flatMap fun v => v.manifestedAs.map Encoding.toRecord := by
  have hpath : pathSegments "versions.manifestedAs" = ["versions", "manifestedAs"] := by decide
  rw [resolve_cons hpath, (resolve_versions c []).2]
  exact objectsIn_step Version.get?_manifestedAs c.versions

/-- The records of the encodings of some versions, and from there those of their locations. -/
theorem objectsIn_availableAt (vs : List Version) :
    Value.objectsIn (Value.resolve
        ((vs.map Version.toRecord).filterMap (Fields.get? "manifestedAs")) ["availableAt"]) =
      vs.flatMap fun v => v.manifestedAs.flatMap fun e => e.availableAt.map Location.toRecord := by
  have hnext : arrayIndex? "availableAt" = none := by decide
  have hmap : (vs.flatMap fun v => v.manifestedAs.map Encoding.toRecord) =
      (vs.flatMap Version.manifestedAs).map Encoding.toRecord := by
    rw [List.map_flatMap]
  rw [resolve_step Version.get?_manifestedAs hnext, hmap]
  have hobjects := objectsIn_step Encoding.get?_availableAt (vs.flatMap Version.manifestedAs)
  rw [List.flatMap_assoc] at hobjects
  exact hobjects

/-- The path of locations leads to the records of the locations of all encodings of all versions. -/
theorem objectsIn_locations (c : Content) :
    Value.objectsIn (Fields.resolve "versions.manifestedAs.availableAt" c.toDocument.fields) =
      c.versions.flatMap fun v => v.manifestedAs.flatMap fun e => e.availableAt.map Location.toRecord := by
  have hpath : pathSegments "versions.manifestedAs.availableAt" =
      ["versions", "manifestedAs", "availableAt"] := by decide
  rw [resolve_cons hpath, (resolve_versions c ["availableAt"]).2]
  exact objectsIn_availableAt c.versions

/-- From a version, the path of broadcasts leads to the records of its own. -/
theorem Version.objectsIn_broadcasts (v : Version) :
    Value.objectsIn (Fields.resolve "broadcasts" v.toRecord) = v.broadcasts.map Broadcast.toRecord := by
  have hpath : pathSegments "broadcasts" = ["broadcasts"] := by decide
  have hobjects := objectsIn_step Version.get?_broadcasts [v]
  rw [resolve_cons hpath]
  simpa [Value.resolve] using hobjects

/-- From a version, the path of encodings leads to the records of its own. -/
theorem Version.objectsIn_encodings (v : Version) :
    Value.objectsIn (Fields.resolve "manifestedAs" v.toRecord) = v.manifestedAs.map Encoding.toRecord := by
  have hpath : pathSegments "manifestedAs" = ["manifestedAs"] := by decide
  have hobjects := objectsIn_step Version.get?_manifestedAs [v]
  rw [resolve_cons hpath]
  simpa [Value.resolve] using hobjects

/-- From a version, the path of locations leads to the records of those of its encodings. -/
theorem Version.objectsIn_locations (v : Version) :
    Value.objectsIn (Fields.resolve "manifestedAs.availableAt" v.toRecord) =
      v.manifestedAs.flatMap fun e => e.availableAt.map Location.toRecord := by
  have hpath : pathSegments "manifestedAs.availableAt" = ["manifestedAs", "availableAt"] := by decide
  have hobjects := objectsIn_availableAt [v]
  rw [resolve_cons hpath]
  simpa using hobjects

/-- From an encoding, the path of locations leads to the records of its own. -/
theorem Encoding.objectsIn_locations (e : Encoding) :
    Value.objectsIn (Fields.resolve "availableAt" e.toRecord) = e.availableAt.map Location.toRecord := by
  have hpath : pathSegments "availableAt" = ["availableAt"] := by decide
  have hobjects := objectsIn_step Encoding.get?_availableAt [e]
  rw [resolve_cons hpath]
  simpa [Value.resolve] using hobjects

/-! ## Filter documents put into one another -/

/-- Something is found in joined lists when it is found in one of them. -/
theorem exists_mem_flatMap_iff {α β : Type} {f : α → List β} {as : List α} {P : β → Prop} :
    (∃ b ∈ as.flatMap f, P b) ↔ ∃ a ∈ as, ∃ b ∈ f a, P b := by
  constructor
  · rintro ⟨b, hb, hP⟩
    obtain ⟨a, ha, hba⟩ := List.mem_flatMap.1 hb
    exact ⟨a, ha, b, hba, hP⟩
  · rintro ⟨a, ha, b, hb, hP⟩
    exact ⟨b, List.mem_flatMap.2 ⟨a, ha, hb⟩, hP⟩

namespace Query

/-- The names under which filter documents are put into one another. -/
def nestedKeys : List String :=
  ["versions", "versions.broadcasts", "versions.manifestedAs", "versions.manifestedAs.availableAt",
    "broadcasts", "manifestedAs", "manifestedAs.availableAt", "availableAt"]

/-- A filter document has no condition under one of these names. -/
def HasNoNested (filter : Fields Value) : Prop :=
  ∀ key ∈ nestedKeys, Fields.get? key filter = none

/-- The names under which filter documents are put into one another are fields, not operators. -/
theorem isOperator_of_mem_nestedKeys : ∀ key ∈ nestedKeys, Filter.isOperator key = false := by
  decide

/-- A filter document put in under a free name becomes a condition on elements there. -/
theorem attach_some {key : String} {filter : Fields Value} (hfree : Fields.get? key filter = none)
    (inner : Fields Value) :
    attach key (some inner) filter =
      Fields.insert key (operatorValue "$elemMatch" (.object inner)) filter := by
  simp only [attach, mergeCondition, hfree]

/-- Putting a filter document in under a free name leaves the other names as they are. -/
theorem get?_attach_of_ne {key name : String} {filter : Fields Value}
    (hfree : Fields.get? key filter = none) (hne : name ≠ key) (inner : Option (Fields Value)) :
    Fields.get? name (attach key inner filter) = Fields.get? name filter := by
  cases inner with
  | none => rfl
  | some inner => rw [attach_some hfree, Fields.get?_insert_of_ne hne]

section

variable {key : String} (hkey : key ∈ nestedKeys) {filter : Fields Value}
  (hfree : Fields.get? key filter = none) (inner : Option (Fields Value))

include hkey hfree

/-- A filter document with another in it can be read when both can. -/
theorem readable_attach :
    Filter.Readable (attach key inner filter) ↔
      Filter.Readable filter ∧ ∀ g ∈ inner, Filter.Readable g := by
  cases inner with
  | none => simp [attach]
  | some g =>
    have hname := isOperator_of_mem_nestedKeys key hkey
    rw [attach_some hfree, Filter.readable_iff, Fields.forall_mem_insert hfree, ← Filter.readable_iff,
      operatorValue, Filter.entryReadable_element hname, and_comm]
    simp

/-- Fields pass a filter document with another in it when they pass the outer one and one of the objects
at the path passes the inner one. -/
theorem accepts_attach (x : Fields Value) :
    Filter.Accepts (attach key inner filter) x ↔
      Filter.Accepts filter x ∧
        ∀ g ∈ inner, ∃ o ∈ Value.objectsIn (Fields.resolve key x), Filter.Accepts g o := by
  cases inner with
  | none => simp [attach]
  | some g =>
    have hname := isOperator_of_mem_nestedKeys key hkey
    rw [attach_some hfree, Filter.accepts_iff, Fields.forall_mem_insert hfree, ← Filter.accepts_iff,
      operatorValue, Filter.entryAccepts_element hname, and_comm]
    simp

end

/-- A plain filter document with another put into it under a field is plain. -/
theorem isPlainFilter_attach {key : String} (hkey : Filter.isOperator key = false) {filter : Fields Value}
    (h : IsPlainFilter filter) (inner : Option (Fields Value)) : IsPlainFilter (attach key inner filter) := by
  cases inner with
  | none => exact h
  | some inner => exact h.merge hkey (isPlainCondition_operatorValue (by decide) _)

/-- If the filter document of the root is plain, so is what comes of putting the others into it. -/
theorem isPlainFilter_assemble {root : Fields Value} (h : IsPlainFilter root)
    (v b e l : Option (Fields Value)) : IsPlainFilter (assemble root v b e l) := by
  unfold assemble attachEncodings
  cases v with
  | some v => exact isPlainFilter_attach (by decide) h _
  | none =>
    refine isPlainFilter_attach (by decide) ?_ b
    cases e with
    | some e => exact isPlainFilter_attach (by decide) h _
    | none => exact isPlainFilter_attach (by decide) h l

/-- Putting in those of encodings and locations leaves all other names as they are. -/
theorem get?_attachEncodings_of_ne {encodingKey locationKey name : String} {filter : Fields Value}
    (hencoding : Fields.get? encodingKey filter = none) (hlocation : Fields.get? locationKey filter = none)
    (hne : name ≠ encodingKey ∧ name ≠ locationKey) (e l : Option (Fields Value)) :
    Fields.get? name (attachEncodings encodingKey locationKey e l filter) = Fields.get? name filter := by
  cases e with
  | some e => exact get?_attach_of_ne hencoding hne.1 (some _)
  | none => exact get?_attach_of_ne hlocation hne.2 l

/-- Where nothing is nested yet, encodings and locations leave the names of other nested things free. -/
theorem get?_attachEncodings_eq_none {encodingKey locationKey name : String} {filter : Fields Value}
    (hfilter : HasNoNested filter) (hencoding : encodingKey ∈ nestedKeys) (hlocation : locationKey ∈ nestedKeys)
    (hname : name ∈ nestedKeys) (hne : name ≠ encodingKey ∧ name ≠ locationKey) (e l : Option (Fields Value)) :
    Fields.get? name (attachEncodings encodingKey locationKey e l filter) = none := by
  rw [get?_attachEncodings_of_ne (hfilter _ hencoding) (hfilter _ hlocation) hne]
  exact hfilter _ hname

section

variable {encodingKey locationKey : String} (hencoding : encodingKey ∈ nestedKeys)
  (hlocation : locationKey ∈ nestedKeys) {filter : Fields Value} (hfilter : HasNoNested filter)
  {e l : Option (Fields Value)} (he : ∀ f ∈ e, HasNoNested f)

include hencoding hlocation hfilter he

/-- A filter document with those of encodings and locations in it can be read when all three can. -/
theorem readable_attachEncodings :
    Filter.Readable (attachEncodings encodingKey locationKey e l filter) ↔
      Filter.Readable filter ∧ (∀ f ∈ e, Filter.Readable f) ∧ ∀ f ∈ l, Filter.Readable f := by
  cases e with
  | some e =>
    have hfree : Fields.get? "availableAt" e = none := he e rfl _ (by decide)
    rw [attachEncodings, readable_attach hencoding (hfilter _ hencoding)]
    simp [readable_attach (by decide : "availableAt" ∈ nestedKeys) hfree]
  | none =>
    rw [attachEncodings, readable_attach hlocation (hfilter _ hlocation)]
    simp

/-- Where the two names lead to encodings and to their locations, an encoding has to be found that
has what is asked of encodings and of locations. -/
theorem accepts_attachEncodings {x : Fields Value} {es : List Encoding}
    (hes : Value.objectsIn (Fields.resolve encodingKey x) = es.map Encoding.toRecord)
    (hls : Value.objectsIn (Fields.resolve locationKey x) =
      es.flatMap fun e => e.availableAt.map Location.toRecord) :
    Filter.Accepts (attachEncodings encodingKey locationKey e l filter) x ↔
      Filter.Accepts filter x ∧ (e.isSome = true ∨ l.isSome = true →
        ∃ y ∈ es, (∀ f ∈ e, Filter.Accepts f y.toRecord) ∧
          ∀ f ∈ l, ∃ z ∈ y.availableAt, Filter.Accepts f z.toRecord) := by
  cases e with
  | some e =>
    have hfree : Fields.get? "availableAt" e = none := he e rfl _ (by decide)
    rw [attachEncodings, accepts_attach hencoding (hfilter _ hencoding), hes]
    simp [accepts_attach (by decide : "availableAt" ∈ nestedKeys) hfree, Encoding.objectsIn_locations]
  | none =>
    rw [attachEncodings, accepts_attach hlocation (hfilter _ hlocation), hls]
    cases l with
    | none => simp
    | some l => simp [exists_and_left, and_assoc]

end

section

variable {root : Fields Value} {b e l : Option (Fields Value)} (hroot : HasNoNested root)
  (he : ∀ f ∈ e, HasNoNested f)

include hroot he

/-- With a filter document of versions everything is asked of one version. -/
theorem accepts_assemble_some {v : Fields Value} (hv : HasNoNested v) (c : Content) :
    Filter.Accepts (assemble root (some v) b e l) c.toDocument.fields ↔
      Filter.Accepts root c.toDocument.fields ∧ (Needs.ofFilters (some v) b e l).FoundIn c.versions := by
  have hfree : Fields.get? "broadcasts"
      (attachEncodings "manifestedAs" "manifestedAs.availableAt" e l v) = none :=
    get?_attachEncodings_eq_none hv (by decide) (by decide) (by decide) (by decide) e l
  have hencodings := fun x : Version =>
    accepts_attachEncodings (by decide : "manifestedAs" ∈ nestedKeys)
      (by decide : "manifestedAs.availableAt" ∈ nestedKeys) hv (l := l) he
      x.objectsIn_encodings x.objectsIn_locations
  have hversion : ∀ x : Version, Filter.Accepts (attach "broadcasts" b
        (attachEncodings "manifestedAs" "manifestedAs.availableAt" e l v)) x.toRecord ↔
      Filter.Accepts v x.toRecord ∧ (Needs.ofFilters (some v) b e l).BroadcastIn x ∧
        (Needs.ofFilters (some v) b e l).EncodingIn x := by
    intro x
    rw [accepts_attach (by decide : "broadcasts" ∈ nestedKeys) hfree, hencodings,
      broadcastIn_ofFilters, encodingIn_ofFilters, x.objectsIn_broadcasts]
    simp only [List.mem_map, exists_exists_and_eq_and]
    tauto
  simp only [assemble, accepts_attach (by decide : "versions" ∈ nestedKeys) (hroot _ (by decide)),
    objectsIn_versions, Option.mem_some_iff, forall_eq', List.mem_map, exists_exists_and_eq_and, hversion]
  rfl

/-- Without one the versions are run together, so a broadcast and an encoding may come from different ones. -/
theorem accepts_assemble_none (c : Content) :
    Filter.Accepts (assemble root none b e l) c.toDocument.fields ↔
      Filter.Accepts root c.toDocument.fields ∧ (Needs.ofFilters none b e l).FoundIn c.versions := by
  have hfree : Fields.get? "versions.broadcasts" (attachEncodings "versions.manifestedAs"
      "versions.manifestedAs.availableAt" e l root) = none :=
    get?_attachEncodings_eq_none hroot (by decide) (by decide) (by decide) (by decide) e l
  have hes : Value.objectsIn (Fields.resolve "versions.manifestedAs" c.toDocument.fields) =
      (c.versions.flatMap Version.manifestedAs).map Encoding.toRecord := by
    rw [objectsIn_encodings, List.map_flatMap]
  have hls : Value.objectsIn
        (Fields.resolve "versions.manifestedAs.availableAt" c.toDocument.fields) =
      (c.versions.flatMap Version.manifestedAs).flatMap
        fun e => e.availableAt.map Location.toRecord := by
    rw [objectsIn_locations, List.flatMap_assoc]
  rw [assemble, accepts_attach (by decide : "versions.broadcasts" ∈ nestedKeys) hfree,
    accepts_attachEncodings (by decide : "versions.manifestedAs" ∈ nestedKeys)
      (by decide : "versions.manifestedAs.availableAt" ∈ nestedKeys) hroot he hes hls,
    objectsIn_broadcasts, and_assoc]
  refine and_congr_right fun _ => ?_
  rw [foundIn_ofFilters_none, and_comm]
  refine and_congr ?_ (forall_congr' fun hasked => ?_)
  · cases b with
    | none => simp
    | some b => simp only [Option.mem_some_iff, forall_eq', Option.isSome_some, forall_const,
        exists_mem_flatMap_iff, List.mem_map, exists_exists_and_eq_and]
  · simp only [hasked, forall_const, exists_mem_flatMap_iff]

end

section

variable {root : Fields Value} {v b e l : Option (Fields Value)} (hroot : HasNoNested root)
  (hv : ∀ f ∈ v, HasNoNested f) (he : ∀ f ∈ e, HasNoNested f)

include hroot hv he

/-- Filter documents put into one another can be read when each of them can. -/
theorem readable_assemble :
    Filter.Readable (assemble root v b e l) ↔
      Filter.Readable root ∧ (∀ f ∈ v, Filter.Readable f) ∧ (∀ f ∈ b, Filter.Readable f) ∧
        (∀ f ∈ e, Filter.Readable f) ∧ ∀ f ∈ l, Filter.Readable f := by
  cases v with
  | some v =>
    have hfree : Fields.get? "broadcasts"
        (attachEncodings "manifestedAs" "manifestedAs.availableAt" e l v) = none :=
      get?_attachEncodings_eq_none (hv v rfl) (by decide) (by decide) (by decide) (by decide) e l
    simp only [assemble, readable_attach (by decide : "versions" ∈ nestedKeys) (hroot _ (by decide)),
      Option.mem_some_iff, forall_eq', readable_attach (by decide : "broadcasts" ∈ nestedKeys) hfree,
      readable_attachEncodings (by decide : "manifestedAs" ∈ nestedKeys)
        (by decide : "manifestedAs.availableAt" ∈ nestedKeys) (hv v rfl) he]
    tauto
  | none =>
    have hfree : Fields.get? "versions.broadcasts" (attachEncodings "versions.manifestedAs"
        "versions.manifestedAs.availableAt" e l root) = none :=
      get?_attachEncodings_eq_none hroot (by decide) (by decide) (by decide) (by decide) e l
    simp only [assemble, readable_attach (by decide : "versions.broadcasts" ∈ nestedKeys) hfree,
      readable_attachEncodings (by decide : "versions.manifestedAs" ∈ nestedKeys)
        (by decide : "versions.manifestedAs.availableAt" ∈ nestedKeys) hroot he]
    simp
    tauto

/-- Put into one another, the filter documents ask of a document of content that it passes that of
the root and that what the others ask for is found in its versions. -/
theorem accepts_assemble (c : Content) :
    Filter.Accepts (assemble root v b e l) c.toDocument.fields ↔
      Filter.Accepts root c.toDocument.fields ∧ (Needs.ofFilters v b e l).FoundIn c.versions := by
  cases v with
  | some v => exact accepts_assemble_some hroot he (hv v rfl) c
  | none => exact accepts_assemble_none hroot he c

end

end Query
end MediaCatalogue
