import MediaCatalogue.Query.Path
import MediaCatalogue.Query.Satisfaction
import MediaCatalogue.Proofs.Record.Fields

/-!
# Where attributes are stored

An entity answers for its attributes, and its record holds them. This file says that both tell the
same: the field of an attribute leads to the stored form of what the entity has for it, and to
nothing when the entity has nothing, for every kind of entity and every attribute that can be asked
for by name.
-/

set_option autoImplicit false

namespace MediaCatalogue

/-- The stored form of a single value. -/
def Scalar.toValue : Scalar → Value
  | .integer n => .int64 n
  | .string s => .string s
  | .boolean b => .bool b
  | .keyword k => .string k
  | .dateTime t => .dateTime t

/-- The stored form of what an entity has for an attribute; an empty collection is not stored. -/
def AttributeValue.stored? : AttributeValue → Option Value
  | .one v => some v.toValue
  | .many [] => none
  | .many vs => some (.array (vs.map Scalar.toValue))

/-- The kind of a single value. -/
def Scalar.kind : Scalar → ValueKind
  | .integer _ => .integer
  | .string _ => .string
  | .boolean _ => .boolean
  | .keyword _ => .keyword
  | .dateTime _ => .dateTime

/-- The keys that an attribute can have; only two attributes have keys. -/
def Attribute.keys (a : Attribute) : List String :=
  if a.field = "mediaType" then (Vocabulary.all : List MediaType).map Vocabulary.key
  else (Vocabulary.all : List TransportType).map Vocabulary.key

/-- A single value fits an attribute: it is of its kind, and a key is one that the attribute can
have. -/
def Attribute.Fits (a : Attribute) (s : Scalar) : Prop :=
  s.kind = a.valueKind ∧ ∀ k, s = .keyword k → k ∈ a.keys

/-- All single values that an entity has for an attribute fit it. -/
def Attribute.FitsAll (a : Attribute) (v : Option AttributeValue) : Prop :=
  ∀ w ∈ v, ∀ s ∈ w.scalars, a.Fits s

/-- What an entity has for each attribute at its place fits the attribute. -/
def AnswersInKind {α : Type} [Queryable α] (path : EntityPath) (e : α) : Prop :=
  ∀ a ∈ Attribute.all, EntityPath.ofKind? a.target = some path →
    a.FitsAll (Queryable.attribute? a e)

/-- Fields hold an entity at a place: there the field of each attribute leads to the stored form of
what the entity has for it. -/
def Stores {α : Type} [Queryable α] (path : EntityPath) (fields : Fields Value) (e : α) : Prop :=
  ∀ a ∈ Attribute.all, EntityPath.ofKind? a.target = some path →
    Fields.resolve a.fieldName fields = ((Queryable.attribute? a e).bind AttributeValue.stored?).toList

namespace Attribute

/-- An attribute has a path exactly when documents have a place for its target. -/
theorem path_eq_ok_iff (a : Attribute) (p : EntityPath) :
    a.path = .ok p ↔ EntityPath.ofKind? a.target = some p := by
  unfold path
  cases EntityPath.ofKind? a.target <;> simp

/-- Only the field of a policy attribute leads through more than one name. -/
theorem pathSegments_fieldName :
    ∀ a ∈ all, a.target ≠ .policy → pathSegments a.fieldName = [a.fieldName] := by
  decide

end Attribute

/-- A single value is stored as it is. -/
@[simp] theorem AttributeValue.stored?_one (v : Scalar) :
    (AttributeValue.one v).stored? = some v.toValue := rfl

/-- What may be missing is stored where it is there. -/
@[simp] theorem bind_stored?_map {β : Type} (o : Option β) (f : β → Scalar) :
    (o.map fun b => AttributeValue.one (f b)).bind AttributeValue.stored? =
      o.map fun b => (f b).toValue := by
  cases o <;> rfl

/-- A set of texts is stored as the array of its members, unless it is empty. -/
@[simp] theorem stored?_strings (s : TextSet) :
    (AttributeValue.strings s).stored? = Record.setValue s := by
  rw [AttributeValue.strings, Record.setValue, TextSet.isEmpty]
  cases s.toList <;> simp [AttributeValue.stored?, Scalar.toValue]

/-- Members of a vocabulary are stored as their keys. -/
theorem keyValue_eq {α : Type} [Vocabulary α] :
    (Record.keyValue : α → Value) = fun a => .string (Vocabulary.key a) := rfl

section

variable {α : Type} [Queryable α] {path : EntityPath} {fields : Fields Value} {e : α}

/-- Away from policies it is enough to look at single fields. -/
theorem stores_of_get?
    (h : ∀ a ∈ Attribute.all, EntityPath.ofKind? a.target = some path → a.target ≠ .policy ∧
      Fields.get? a.fieldName fields = (Queryable.attribute? a e).bind AttributeValue.stored?) :
    Stores path fields e := by
  intro a ha hp
  obtain ⟨hpolicy, hget⟩ := h a ha hp
  rw [Record.resolve_name (Attribute.pathSegments_fieldName a ha hpolicy), hget]

end

namespace Attribute

variable {a : Attribute}

/-- An entity without a value has none that does not fit. -/
@[simp] theorem fitsAll_none : a.FitsAll none := by
  simp [FitsAll]

/-- A single value fits as it does alone. -/
@[simp] theorem fitsAll_one (s : Scalar) : a.FitsAll (some (.one s)) ↔ a.Fits s := by
  simp [FitsAll, AttributeValue.scalars]

/-- What may be missing fits if it does where it is there. -/
@[simp] theorem fitsAll_map {β : Type} (o : Option β) (f : β → Scalar) :
    a.FitsAll (o.map fun b => .one (f b)) ↔ ∀ b ∈ o, a.Fits (f b) := by
  cases o <;> simp

/-- A set of texts fits when each text does. -/
@[simp] theorem fitsAll_strings (s : TextSet) :
    a.FitsAll (some (AttributeValue.strings s)) ↔ ∀ t ∈ s.toList, a.Fits (.string t) := by
  simp [FitsAll, AttributeValue.strings, AttributeValue.scalars]

/-- Whole numbers fit attributes of whole numbers. -/
@[simp] theorem fits_integer (n : Int64) : a.Fits (.integer n) ↔ a.valueKind = .integer := by
  simp [Fits, Scalar.kind, eq_comm]

/-- Texts fit attributes of texts. -/
@[simp] theorem fits_string (s : String) : a.Fits (.string s) ↔ a.valueKind = .string := by
  simp [Fits, Scalar.kind, eq_comm]

/-- Truth values fit attributes of truth values. -/
@[simp] theorem fits_boolean (b : Bool) : a.Fits (.boolean b) ↔ a.valueKind = .boolean := by
  simp [Fits, Scalar.kind, eq_comm]

/-- Instants fit attributes of instants. -/
@[simp] theorem fits_dateTime (t : Instant) : a.Fits (.dateTime t) ↔ a.valueKind = .dateTime := by
  simp [Fits, Scalar.kind, eq_comm]

/-- Keys fit attributes of keys that have them among their keys. -/
theorem fits_keyword (k : String) : a.Fits (.keyword k) ↔ a.valueKind = .keyword ∧ k ∈ a.keys := by
  simp [Fits, Scalar.kind, eq_comm]

/-- The key of a media type fits an attribute of media types. -/
theorem fits_mediaType (h : a.field = "mediaType") (hk : a.valueKind = .keyword) (m : MediaType) :
    a.Fits (.keyword (Vocabulary.key m)) := by
  rw [fits_keyword, keys, if_pos h]
  exact ⟨hk, List.mem_map_of_mem (by cases m <;> decide)⟩

/-- The key of a transport type fits an attribute of transport types. -/
theorem fits_transportType (h : a.field = "transportType") (hk : a.valueKind = .keyword)
    (t : TransportType) : a.Fits (.keyword (Vocabulary.key t)) := by
  rw [fits_keyword, keys, if_neg (by simp [h])]
  exact ⟨hk, List.mem_map_of_mem (by cases t <;> decide)⟩

end Attribute

/-! ## Versions and what is beneath them -/

open AttributeValue

/-- The attributes of versions, by their fields and kinds. -/
theorem Attribute.version_cases :
    ∀ a ∈ Attribute.all, EntityPath.ofKind? a.target = some .versions →
      (a.target ≠ .policy ∧ a.fieldName = a.field) ∧
        (a.field = "duration" ∧ a.valueKind = .integer ∨
          a.field = "publishedDuration" ∧ a.valueKind = .integer) := by
  decide

/-- The record of a version stores it. -/
theorem Version.stores (v : Version) : Stores .versions v.toRecord v := by
  refine stores_of_get? fun a ha hp => ?_
  obtain ⟨⟨hpolicy, hname⟩, hfield⟩ := Attribute.version_cases a ha hp
  refine ⟨hpolicy, ?_⟩
  rw [Version.toRecord, Record.get?_ofEntries _ (by simp), hname]
  rcases hfield with ⟨h, -⟩ | ⟨h, -⟩ <;>
    simp [Queryable.attribute?, h, Fields.get?, integer?, Scalar.toValue]

/-- What a version has for its attributes is of their kinds. -/
theorem Version.answersInKind (v : Version) : AnswersInKind .versions v := by
  intro a ha hp
  rcases (Attribute.version_cases a ha hp).2 with ⟨h, hk⟩ | ⟨h, hk⟩ <;>
    simp [Queryable.attribute?, h, hk, integer?]

/-- The attributes of broadcasts, by their fields and kinds. -/
theorem Attribute.broadcast_cases :
    ∀ a ∈ Attribute.all, EntityPath.ofKind? a.target = some .broadcasts →
      (a.target ≠ .policy ∧ a.fieldName = a.field) ∧
        (a.field = "broadcastOn" ∧ a.valueKind = .string ∨
          a.field = "transmissionTime" ∧ a.valueKind = .dateTime ∨
          a.field = "transmissionEndTime" ∧ a.valueKind = .dateTime ∨
          a.field = "broadcastDuration" ∧ a.valueKind = .integer ∨
          a.field = "repeat" ∧ a.valueKind = .boolean) := by
  decide

/-- The record of a broadcast stores it. -/
theorem Broadcast.stores (b : Broadcast) : Stores .broadcasts b.toRecord b := by
  refine stores_of_get? fun a ha hp => ?_
  obtain ⟨⟨hpolicy, hname⟩, hfield⟩ := Attribute.broadcast_cases a ha hp
  refine ⟨hpolicy, ?_⟩
  rw [Broadcast.toRecord, Record.get?_ofEntries _ (by simp), hname]
  rcases hfield with ⟨h, -⟩ | ⟨h, -⟩ | ⟨h, -⟩ | ⟨h, -⟩ | ⟨h, -⟩ <;>
    simp [Queryable.attribute?, h, Fields.get?, string?, integer?, dateTime?, Scalar.toValue]

/-- What a broadcast has for its attributes is of their kinds. -/
theorem Broadcast.answersInKind (b : Broadcast) : AnswersInKind .broadcasts b := by
  intro a ha hp
  rcases (Attribute.broadcast_cases a ha hp).2 with
    ⟨h, hk⟩ | ⟨h, hk⟩ | ⟨h, hk⟩ | ⟨h, hk⟩ | ⟨h, hk⟩ <;>
    simp [Queryable.attribute?, h, hk, string?, integer?, dateTime?]

/-- The attributes of encodings, by their fields and kinds. -/
theorem Attribute.encoding_cases :
    ∀ a ∈ Attribute.all, EntityPath.ofKind? a.target = some .encodings →
      (a.target ≠ .policy ∧ a.fieldName = a.field) ∧
        (a.field = "dataContainerFormat" ∧ a.valueKind = .string ∨
          a.field = "bitRate" ∧ a.valueKind = .integer ∨
          a.field = "videoCoding" ∧ a.valueKind = .string ∨
          a.field = "audioCoding" ∧ a.valueKind = .string) := by
  decide

/-- The record of an encoding stores it. -/
theorem Encoding.stores (e : Encoding) : Stores .encodings e.toRecord e := by
  refine stores_of_get? fun a ha hp => ?_
  obtain ⟨⟨hpolicy, hname⟩, hfield⟩ := Attribute.encoding_cases a ha hp
  refine ⟨hpolicy, ?_⟩
  rw [Encoding.toRecord, Record.get?_ofEntries _ (by simp), hname]
  rcases hfield with ⟨h, -⟩ | ⟨h, -⟩ | ⟨h, -⟩ | ⟨h, -⟩ <;>
    simp [Queryable.attribute?, h, Fields.get?, string?, integer?, Scalar.toValue]

/-- What an encoding has for its attributes is of their kinds. -/
theorem Encoding.answersInKind (e : Encoding) : AnswersInKind .encodings e := by
  intro a ha hp
  rcases (Attribute.encoding_cases a ha hp).2 with ⟨h, hk⟩ | ⟨h, hk⟩ | ⟨h, hk⟩ | ⟨h, hk⟩ <;>
    simp [Queryable.attribute?, h, hk, string?, integer?]

/-! ## Locations and their policies -/

/-- The attributes of locations and of their policies, by their fields and kinds; those of policies are
found one step further down. -/
theorem Attribute.location_cases :
    ∀ a ∈ Attribute.all, EntityPath.ofKind? a.target = some .locations →
      (a.target ≠ .policy ∧ a.fieldName = a.field) ∧
          (a.field = "available" ∧ a.valueKind = .boolean ∨
            a.field = "transportType" ∧ a.valueKind = .keyword ∨
            a.field = "uri" ∧ a.valueKind = .string) ∨
        (a.target = .policy ∧ pathSegments a.fieldName = ["policy", a.field]) ∧
          (a.field = "availableCountries" ∧ a.valueKind = .string ∨
            a.field = "availabilityStart" ∧ a.valueKind = .dateTime ∨
            a.field = "availabilityEnd" ∧ a.valueKind = .dateTime) := by
  decide

/-- The record of a policy holds what the policy has for its attributes. -/
theorem Policy.get?_toRecord (p : Policy) (a : Attribute)
    (h : a.field = "availableCountries" ∨ a.field = "availabilityStart" ∨
      a.field = "availabilityEnd") :
    Fields.get? a.field p.toRecord = (Queryable.attribute? a p).bind stored? := by
  rw [Policy.toRecord, Record.get?_ofEntries _ (by simp)]
  rcases h with h | h | h <;> simp [Queryable.attribute?, h, Fields.get?, dateTime?, Scalar.toValue]

/-- The fields of a policy lie in the object that is stored in its location. -/
theorem Location.stores (l : Location) : Stores .locations l.toRecord l := by
  intro a ha hp
  rcases Attribute.location_cases a ha hp with ⟨⟨htarget, hname⟩, hfield⟩ | ⟨⟨htarget, hpath⟩, hfield⟩
  · rw [Record.resolve_name (Attribute.pathSegments_fieldName a ha htarget), Location.toRecord,
      Record.get?_ofEntries _ (by simp), hname]
    rcases hfield with ⟨h, -⟩ | ⟨h, -⟩ | ⟨h, -⟩ <;>
      simp [Queryable.attribute?, htarget, h, Fields.get?, string?, keyValue_eq, Scalar.toValue]
  · have hpolicy : Fields.get? "policy" l.toRecord = l.policy.map fun p => .object p.toRecord := by
      rw [Location.toRecord, Record.get?_ofEntries _ (by simp)]
      simp [Fields.get?]
    have hattribute : Queryable.attribute? a l = l.policy.bind (Queryable.attribute? a) := by
      simp [Queryable.attribute?, htarget]
    rw [Record.resolve_cons hpath, hattribute]
    cases hl : l.policy with
    | none => simp [hpolicy, hl, Value.resolve]
    | some p =>
      have hget := p.get?_toRecord a (by
        rcases hfield with ⟨h, -⟩ | ⟨h, -⟩ | ⟨h, -⟩ <;> simp [h])
      simp [hpolicy, hl, Value.resolve, Value.children, hget]

/-- What a location has for its attributes and for those of policies is of their kinds. -/
theorem Location.answersInKind (l : Location) : AnswersInKind .locations l := by
  intro a ha hp
  rcases Attribute.location_cases a ha hp with ⟨⟨htarget, -⟩, hfield⟩ | ⟨⟨htarget, -⟩, hfield⟩
  · have htransport := fun (h : a.field = "transportType") (hk : a.valueKind = .keyword) =>
      Attribute.fits_transportType h hk
    rcases hfield with ⟨h, hk⟩ | ⟨h, hk⟩ | ⟨h, hk⟩
    · simp [Queryable.attribute?, htarget, h, hk]
    · simpa [Queryable.attribute?, htarget, h] using fun t _ => htransport h hk t
    · simp [Queryable.attribute?, htarget, h, hk, string?]
  · have hattribute : Queryable.attribute? a l = l.policy.bind (Queryable.attribute? a) := by
      simp [Queryable.attribute?, htarget]
    rw [hattribute]
    cases l.policy with
    | none => simp
    | some p =>
      rcases hfield with ⟨h, hk⟩ | ⟨h, hk⟩ | ⟨h, hk⟩ <;>
        simp [Queryable.attribute?, h, hk, dateTime?]

/-! ## Content -/

/-- The attributes of what is said of all content: their fields, the names under which they are
stored, and their kinds. -/
def describedFields : List (String × String × ValueKind) :=
  [("title", "title", .string), ("description", "description", .string),
    ("canonicalUri", "canonicalUri", .string), ("curie", "curie", .string),
    ("publisher", "publisher", .string), ("genre", "genres", .string), ("tag", "tags", .string),
    ("mediaType", "mediaType", .keyword), ("lastUpdated", "lastUpdated", .dateTime)]

/-- The other attributes of content belong to some kinds of content only. -/
theorem Attribute.root_cases :
    ∀ a ∈ Attribute.all, EntityPath.ofKind? a.target = some .root →
      (a.target ≠ .policy ∧ a.fieldName ≠ "lookup") ∧
        ((a.field, a.fieldName, a.valueKind) ∈ describedFields ∨
          a.fieldName = a.field ∧
            (a.field = "isLongForm" ∧ a.valueKind = .boolean ∨
              a.field = "episodeNumber" ∧ a.valueKind = .integer ∨
              a.field = "seriesNumber" ∧ a.valueKind = .integer)) := by
  decide

/-- A record holds a value of an attribute, which is of its kind. -/
structure Attribute.StoredIn (a : Attribute) (record : Fields Value) (v : Option AttributeValue) :
    Prop where
  get?_eq : Fields.get? a.fieldName record = v.bind stored?
  fits : a.FitsAll v

/-- A record that begins with the entries of what describes content holds its attributes, whatever
entries of other names follow. -/
theorem Described.storedIn (d : Described) {own : List (String × Option Value)} {a : Attribute}
    (hown : ((d.toEntries ++ own).map Prod.fst).Nodup)
    (h : (a.field, a.fieldName, a.valueKind) ∈ describedFields) :
    a.StoredIn (Record.ofEntries (d.toEntries ++ own)) (d.attribute? a) := by
  have hget := Record.get?_ofEntries a.fieldName hown
  have hkey := fun (hf : a.field = "mediaType") (hk : a.valueKind = .keyword) =>
    Attribute.fits_mediaType hf hk
  simp only [describedFields, List.mem_cons, Prod.mk.injEq, List.not_mem_nil, or_false] at h
  rcases h with ⟨h, hn, hk⟩ | ⟨h, hn, hk⟩ | ⟨h, hn, hk⟩ | ⟨h, hn, hk⟩ | ⟨h, hn, hk⟩ | ⟨h, hn, hk⟩ |
    ⟨h, hn, hk⟩ | ⟨h, hn, hk⟩ | ⟨h, hn, hk⟩ <;>
    exact ⟨hget.trans (by simp [hn, Described.attribute?, h, Described.toEntries, Fields.get?, string?,
        dateTime?, keyValue_eq, Function.comp_def, Scalar.toValue]),
      by simp [Described.attribute?, h, hk, hkey, string?, dateTime?, Function.comp_def]⟩

/-- The attributes that only some kinds of content have are not among those that describe all. -/
theorem field_ne_of_mem_describedFields {a : Attribute}
    (h : (a.field, a.fieldName, a.valueKind) ∈ describedFields) :
    a.field ≠ "isLongForm" ∧ a.field ≠ "episodeNumber" ∧ a.field ≠ "seriesNumber" := by
  have hall : ∀ f ∈ describedFields,
      f.1 ≠ "isLongForm" ∧ f.1 ≠ "episodeNumber" ∧ f.1 ≠ "seriesNumber" := by decide
  exact hall _ h

/-- The record of an item holds the attributes of content. -/
theorem Item.storedIn (i : Item) (a : Attribute) (ha : a ∈ Attribute.all)
    (hp : EntityPath.ofKind? a.target = some .root) :
    a.StoredIn i.toRecord (Queryable.attribute? a i) := by
  rcases (Attribute.root_cases a ha hp).2 with h | ⟨hn, h⟩
  · have hdescribed : Queryable.attribute? a i = i.described.attribute? a := by
      obtain ⟨h₁, h₂, h₃⟩ := field_ne_of_mem_describedFields h
      simp [Queryable.attribute?]
    rw [hdescribed]
    exact i.described.storedIn (by simp [Described.toEntries]) h
  · have hget : Fields.get? a.fieldName i.toRecord = _ :=
      Record.get?_ofEntries a.fieldName (by simp [Described.toEntries])
    rcases h with ⟨h, hk⟩ | ⟨h, hk⟩ | ⟨h, hk⟩ <;>
      exact ⟨hget.trans (by simp [hn, h, Queryable.attribute?, Described.toEntries, Fields.get?, integer?,
          Scalar.toValue]),
        by simp [Queryable.attribute?, h, hk, integer?]⟩

/-- The record of a container holds the attributes of content, whatever its members. -/
theorem Container.storedIn (c : Container) (contents : List (Fields Value)) (a : Attribute)
    (ha : a ∈ Attribute.all) (hp : EntityPath.ofKind? a.target = some .root) :
    a.StoredIn (c.toRecord contents) (Queryable.attribute? a c) := by
  rcases (Attribute.root_cases a ha hp).2 with h | ⟨hn, h⟩
  · have hdescribed : Queryable.attribute? a c = c.described.attribute? a := by
      obtain ⟨-, -, h₃⟩ := field_ne_of_mem_describedFields h
      simp [Queryable.attribute?]
    rw [hdescribed]
    exact c.described.storedIn (by simp [Described.toEntries]) h
  · have hget : Fields.get? a.fieldName (c.toRecord contents) = _ :=
      Record.get?_ofEntries a.fieldName (by simp [Described.toEntries])
    rcases h with ⟨h, hk⟩ | ⟨h, hk⟩ | ⟨h, hk⟩ <;>
      exact ⟨hget.trans (by simp [hn, h, Queryable.attribute?, Described.attribute?, Described.toEntries,
          Fields.get?, integer?, Scalar.toValue]),
        by simp [Queryable.attribute?, Described.attribute?, h, hk, integer?]⟩

/-- The record of a group holds the attributes of content, whatever its members. -/
theorem Described.storedIn_group (d : Described) (contents : List (Fields Value)) (a : Attribute)
    (ha : a ∈ Attribute.all) (hp : EntityPath.ofKind? a.target = some .root) :
    a.StoredIn (d.toGroupRecord contents) (d.attribute? a) := by
  rcases (Attribute.root_cases a ha hp).2 with h | ⟨hn, h⟩
  · exact d.storedIn (by simp [Described.toEntries]) h
  · have hget : Fields.get? a.fieldName (d.toGroupRecord contents) = _ :=
      Record.get?_ofEntries a.fieldName (by simp [Described.toEntries])
    rcases h with ⟨h, -⟩ | ⟨h, -⟩ | ⟨h, -⟩ <;>
      exact ⟨hget.trans (by simp [hn, h, Described.attribute?, Described.toEntries, Fields.get?]),
        by simp [Described.attribute?, h]⟩

/-- The record of content holds its attributes. -/
theorem Content.storedIn (c : Content) (a : Attribute) (ha : a ∈ Attribute.all)
    (hp : EntityPath.ofKind? a.target = some .root) :
    a.StoredIn c.toRecord (Queryable.attribute? a c) := by
  cases c with
  | item i => exact i.storedIn a ha hp
  | container c ms => exact c.storedIn _ a ha hp
  | group d ms => exact d.storedIn_group _ a ha hp

/-- The document of content stores it at the root. -/
theorem Content.stores (c : Content) : Stores .root c.toDocument.fields c := by
  refine stores_of_get? fun a ha hp => ?_
  obtain ⟨hpolicy, hlookup⟩ := (Attribute.root_cases a ha hp).1
  refine ⟨hpolicy, ?_⟩
  rw [c.get?_toDocument hlookup]
  exact (c.storedIn a ha hp).get?_eq

/-- What content has for its attributes is of their kinds. -/
theorem Content.answersInKind (c : Content) : AnswersInKind .root c :=
  fun a ha hp => (c.storedIn a ha hp).fits

end MediaCatalogue
