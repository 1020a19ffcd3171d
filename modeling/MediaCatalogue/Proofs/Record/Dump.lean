import MediaCatalogue.Proofs.Record.RoundTrip
import MediaCatalogue.Proofs.Record.Shape

/-!
# Documents through JSON and back

A document can be written as JSON and made again from it. Its whole numbers may then have another width;
the rest of what a record holds is read back as it was. A reader of records does not see the difference:
each field reader gives the same for a field and for its narrowed form, and so does each reader of an
entity, at every depth. So the content that is read from the document made again is the content that the
first one was written for.
-/

set_option autoImplicit false

namespace MediaCatalogue

open Value

/-! ## Views of narrowed values -/

namespace Value

/-- A whole number of the larger width stays as it is, or becomes the same number of the smaller one. -/
theorem narrowed_int64 (n : Int64) :
    (int64 n).narrowed = .int64 n ∨ ∃ m : Int32, (int64 n).narrowed = .int32 m ∧ m.toInt64 = n := by
  rw [narrowed]
  by_cases hwide : (int64 n).IsWide
  · exact Or.inl (ofInt_toInt_int64 hwide)
  · have hsmall : -2147483648 ≤ n.toInt ∧ n.toInt ≤ 2147483647 := Classical.not_not.1 hwide
    refine Or.inr ⟨Int32.ofInt n.toInt, by rw [ofInt, if_pos hsmall], ?_⟩
    rw [← Int64.toInt_inj, Int32.toInt_toInt64]
    exact Int32.toInt_ofInt_of_le (by omega) (by omega)

/-- A view that takes numbers as numbers and does not look into arrays or objects does not see the
difference. -/
theorem view_narrowed {β : Type} {view : Value → β}
    (hnumber : ∀ (m : Int32) (n : Int64), m.toInt64 = n → view (.int32 m) = view (.int64 n))
    (harray : ∀ items items', view (.array items) = view (.array items'))
    (hobject : ∀ fields fields', view (.object fields) = view (.object fields')) (v : Value) :
    view v.narrowed = view v := by
  cases v with
  | int64 n =>
    rcases narrowed_int64 n with h | ⟨m, h, hm⟩
    · rw [h]
    · rw [h, hnumber m n hm]
  | array items => exact harray _ items
  | object fields => exact hobject _ fields
  | _ => rfl

/-- Narrowing makes nothing null. -/
theorem isNull_narrowed : ∀ v : Value, v.narrowed.isNull = v.isNull :=
  view_narrowed (fun _ _ _ => rfl) (fun _ _ => rfl) fun _ _ => rfl

/-- Narrowing leaves texts. -/
theorem string?_narrowed : ∀ v : Value, v.narrowed.string? = v.string? :=
  view_narrowed (fun _ _ _ => rfl) (fun _ _ => rfl) fun _ _ => rfl

/-- Narrowing leaves truth values. -/
theorem bool?_narrowed : ∀ v : Value, v.narrowed.bool? = v.bool? :=
  view_narrowed (fun _ _ _ => rfl) (fun _ _ => rfl) fun _ _ => rfl

/-- Narrowing leaves instants. -/
theorem dateTime?_narrowed : ∀ v : Value, v.narrowed.dateTime? = v.dateTime? :=
  view_narrowed (fun _ _ _ => rfl) (fun _ _ => rfl) fun _ _ => rfl

/-- Narrowing leaves whole numbers what they are, whatever their width. -/
theorem int?_narrowed : ∀ v : Value, v.narrowed.int? = v.int? :=
  view_narrowed (fun _ _ h => congrArg some h) (fun _ _ => rfl) fun _ _ => rfl

/-- The items of a narrowed array are those of the array, each narrowed. -/
theorem array?_narrowed (v : Value) : v.narrowed.array? = v.array?.map (List.map narrowed) := by
  cases v with
  | int64 n =>
    rcases narrowed_int64 n with h | ⟨m, h, -⟩ <;>
    · rw [h]
      rfl
  | array items => exact congrArg some (narrowedItems_eq_map items)
  | _ => rfl

end Value

/-! ## Reading fields -/

namespace Record

section

variable (entity field : String) (fields : Fields Value)

/-- A field that is there and not null is so after narrowing. -/
theorem value?_narrowed :
    value? field (narrowedFields fields) = (value? field fields).map narrowed := by
  have hnull : (fun v : Value => !v.isNull) ∘ narrowed = fun v => !v.isNull :=
    funext fun v => congrArg not v.isNull_narrowed
  rw [value?, value?, narrowedFields_eq_map, Fields.get?_map, Option.filter_map, hnull]

/-- A field of a type that does not see the width of numbers is read as before. -/
theorem read_narrowed {α : Type} {view : Value → Option α} (expected : FieldType)
    (hview : ∀ v : Value, view v.narrowed = view v) :
    read expected view entity field (narrowedFields fields) = read expected view entity field fields := by
  rw [read, read, value?_narrowed]
  cases value? field fields with
  | none => rfl
  | some v => simp only [Option.map_some, hview]

/-- A text is read as before. -/
theorem string_narrowed : string entity field (narrowedFields fields) = string entity field fields :=
  read_narrowed entity field fields .string string?_narrowed

/-- A whole number is read as before. -/
theorem int_narrowed : int entity field (narrowedFields fields) = int entity field fields :=
  read_narrowed entity field fields .integer int?_narrowed

/-- A truth value is read as before. -/
theorem bool_narrowed : bool entity field (narrowedFields fields) = bool entity field fields :=
  read_narrowed entity field fields .boolean bool?_narrowed

/-- An instant is read as before. -/
theorem dateTime_narrowed :
    dateTime entity field (narrowedFields fields) = dateTime entity field fields :=
  read_narrowed entity field fields .dateTime dateTime?_narrowed

/-- A field that must be there is read as before. -/
theorem required_narrowed {α : Type}
    {reader : (entity field : String) → Fields Value → Except RecordError (Option α)}
    (hreader : ∀ fields, reader entity field (narrowedFields fields) = reader entity field fields) :
    required reader entity field (narrowedFields fields) = required reader entity field fields := by
  rw [required, required, hreader]

/-- A value of a vocabulary is read as before. -/
theorem keyed_narrowed {α : Type} [Vocabulary α] :
    (keyed entity field (narrowedFields fields) : Except RecordError (Option α)) =
      keyed entity field fields := by
  rw [keyed, keyed, string_narrowed]

/-- The items of a list are read narrowed. -/
theorem items_narrowed : items entity field (narrowedFields fields) =
    (items entity field fields).map (List.map narrowed) := by
  rw [items, items, read, read, value?_narrowed]
  cases value? field fields with
  | none => rfl
  | some v =>
    simp only [Option.map_some, array?_narrowed]
    cases v.array? <;> rfl

/-- What is done with the items of a field is the same, if it is the same for narrowed items. -/
theorem items_bind_narrowed {α : Type} {next : List Value → Except RecordError α}
    (hnext : ∀ vs, next (vs.map narrowed) = next vs) :
    (items entity field (narrowedFields fields) >>= next) = items entity field fields >>= next := by
  rw [items_narrowed]
  cases items entity field fields with
  | error e => rfl
  | ok vs => exact hnext vs

/-- A set of texts is read as before. -/
theorem textSet_narrowed :
    textSet entity field (narrowedFields fields) = textSet entity field fields := by
  refine items_bind_narrowed entity field fields fun vs => ?_
  simp only [List.mapM_map, Function.comp_def, string?_narrowed]

/-- A list of records is read as before, if each of them is. -/
theorem list_narrowed {α : Type} {reader : Fields Value → Except RecordError α}
    (hreader : ∀ fields, reader (narrowedFields fields) = reader fields) :
    list reader entity field (narrowedFields fields) = list reader entity field fields := by
  refine items_bind_narrowed entity field fields fun vs => ?_
  rw [List.mapM_map]
  refine congrArg (List.mapM · vs) (funext fun v => ?_)
  cases v with
  | int64 n =>
    rcases narrowed_int64 n with h | ⟨m, h, -⟩ <;>
    · rw [Function.comp_apply, h]
  | object inner => exact hreader inner
  | _ => rfl

/-- A record inside is read as before, if records of its kind are. -/
theorem nested_narrowed {α : Type} {reader : Fields Value → Except RecordError α}
    (hreader : ∀ fields, reader (narrowedFields fields) = reader fields) :
    nested reader entity field (narrowedFields fields) = nested reader entity field fields := by
  rw [nested, nested, value?_narrowed]
  cases value? field fields with
  | none => rfl
  | some v =>
    cases v with
    | int64 n =>
      rcases narrowed_int64 n with h | ⟨m, h, -⟩ <;>
      · rw [Option.map_some, h]
    | object inner => exact congrArg (Except.map some) (hreader inner)
    | _ => rfl

end

end Record

open Record

/-! ## Reading entities -/

/-- A policy is read as before. -/
theorem Policy.ofRecord_narrowed (fields : Fields Value) :
    ofRecord (narrowedFields fields) = ofRecord fields := by
  simp only [ofRecord, textSet_narrowed, dateTime_narrowed]

/-- A location is read as before, since its policy is. -/
theorem Location.ofRecord_narrowed (fields : Fields Value) :
    ofRecord (narrowedFields fields) = ofRecord fields := by
  simp only [ofRecord, string_narrowed, bool_narrowed, keyed_narrowed,
    nested_narrowed _ _ _ Policy.ofRecord_narrowed]

/-- An encoding is read as before, since its locations are. -/
theorem Encoding.ofRecord_narrowed (fields : Fields Value) :
    ofRecord (narrowedFields fields) = ofRecord fields := by
  simp only [ofRecord, string_narrowed, int_narrowed, list_narrowed _ _ _ Location.ofRecord_narrowed]

/-- A broadcast is read as before. -/
theorem Broadcast.ofRecord_narrowed (fields : Fields Value) :
    ofRecord (narrowedFields fields) = ofRecord fields := by
  simp only [ofRecord, required_narrowed _ _ _ (string_narrowed _ _),
    required_narrowed _ _ _ (dateTime_narrowed _ _), bool_narrowed, string_narrowed]

/-- A version is read as before, since what is beneath it is. -/
theorem Version.ofRecord_narrowed (fields : Fields Value) :
    ofRecord (narrowedFields fields) = ofRecord fields := by
  simp only [ofRecord, string_narrowed, int_narrowed, list_narrowed _ _ _ Broadcast.ofRecord_narrowed,
    list_narrowed _ _ _ Encoding.ofRecord_narrowed]

/-- What is said of content is read as before. -/
theorem Described.ofRecord_narrowed (entity : String) (fields : Fields Value) :
    ofRecord entity (narrowedFields fields) = ofRecord entity fields := by
  simp only [ofRecord, required_narrowed _ _ _ (string_narrowed _ _), string_narrowed, textSet_narrowed,
    keyed_narrowed, dateTime_narrowed]

/-- An item is read as before, since its versions are. -/
theorem Item.ofRecord_narrowed (fields : Fields Value) :
    ofRecord (narrowedFields fields) = ofRecord fields := by
  simp only [ofRecord, string_narrowed, Described.ofRecord_narrowed, bool_narrowed, int_narrowed,
    list_narrowed _ _ _ Version.ofRecord_narrowed]

/-- A container without its contents is read as before. -/
theorem Container.ofRecord_narrowed (fields : Fields Value) :
    ofRecord (narrowedFields fields) = ofRecord fields := by
  simp only [ofRecord, string_narrowed, Described.ofRecord_narrowed, int_narrowed]

namespace Content

/-- Content is read as before, given the reader of its contents. -/
theorem ofRecordWith_narrowed (contents : String → Except RecordError (List Content))
    (fields : Fields Value) :
    ofRecordWith contents (narrowedFields fields) = ofRecordWith contents fields := by
  simp only [ofRecordWith, required_narrowed _ _ _ (string_narrowed _ _), Item.ofRecord_narrowed,
    containerOfRecord, Container.ofRecord_narrowed, groupOfRecord, Described.ofRecord_narrowed]

mutual

/-- The contents among narrowed fields are read as before. -/
theorem contentsOfFields_narrowed (entity : String) : ∀ fields : List (String × Value),
    contentsOfFields entity (narrowedFields fields) = contentsOfFields entity fields
  | [] => rfl
  | (name, v) :: rest => by
    rw [narrowedFields, contentsOfFields, contentsOfFields, contentsOfValue_narrowed entity v,
      contentsOfFields_narrowed entity rest]

/-- Contents are read as before from a narrowed value. -/
theorem contentsOfValue_narrowed (entity : String) : ∀ v : Value,
    contentsOfValue entity v.narrowed = contentsOfValue entity v
  | .array items => contentsOfItems_narrowed entity items
  | .int64 n => by
    rcases narrowed_int64 n with h | ⟨m, h, -⟩
    · rw [h]
    · rw [h]
      rfl
  | .null | .bool _ | .int32 _ | .float _ | .string _ | .dateTime _ | .regex _ _ | .object _ => rfl

/-- Content is read as before one after another. -/
theorem contentsOfItems_narrowed (entity : String) : ∀ vs : List Value,
    contentsOfItems entity (narrowedItems vs) = contentsOfItems entity vs
  | [] => rfl
  | v :: vs => by
    rw [narrowedItems, contentsOfItems, contentsOfItems, contentOfItem_narrowed entity v,
      contentsOfItems_narrowed entity vs]

/-- A piece of content is read as before. -/
theorem contentOfItem_narrowed (entity : String) : ∀ v : Value,
    contentOfItem entity v.narrowed = contentOfItem entity v
  | .object fields => by
    have hinner : (fun inner => contentsOfFields inner (narrowedFields fields)) =
        fun inner => contentsOfFields inner fields :=
      funext fun inner => contentsOfFields_narrowed inner fields
    rw [narrowed, contentOfItem, contentOfItem, hinner, ofRecordWith_narrowed]
  | .int64 n => by
    rcases narrowed_int64 n with h | ⟨m, h, -⟩
    · rw [h]
    · rw [h]
      rfl
  | .null | .bool _ | .int32 _ | .float _ | .string _ | .dateTime _ | .regex _ _ | .array _ => rfl

end

/-- Reading content does not depend on the widths of whole numbers. -/
theorem ofRecord_narrowed (fields : Fields Value) :
    ofRecord (narrowedFields fields) = ofRecord fields := by
  have hcontents : (fun entity => contentsOfFields entity (narrowedFields fields)) =
      fun entity => contentsOfFields entity fields :=
    funext fun entity => contentsOfFields_narrowed entity fields
  rw [ofRecord, ofRecord, hcontents, ofRecordWith_narrowed]

end Content

/-! ## Documents -/

/-- A document of plain values with whole instants is made again from its JSON form, with its whole numbers
in the narrowest width. -/
theorem Document.ofJson_toJson_of_isPlain {d : Document} (id : DocumentId)
    (h : (Value.object d.fields).IsPlain fun t => t.isWholeMillis = true) :
    ofJson id d.toJson = .ok { id := id, fields := narrowedFields d.fields } := by
  have hread := ofJson_toJson_eq_narrowed h.wellFormed fun u hu =>
    ⟨(h.of_contains hu).isWhole, (h.of_contains hu).isUnambiguous⟩
  rw [Value.toJson, narrowed] at hread
  rw [ofJson, toJson, Fields.ofJson, Fields.toJson, hread]
  rfl

/-- **A dump is read back.** Content whose instants are whole milliseconds, and no leap seconds, is read
from the document that is made of the JSON form of its own; the fields of the two documents differ in the
widths of whole numbers at most. -/
theorem Content.ofDocument_ofJson (c : Content) (h : ∀ t ∈ c.dates, t.isWholeMillis = true)
    (id : DocumentId) :
    ∃ d, Document.ofJson id c.toDocument.toJson = .ok d ∧
      d.fields = narrowedFields c.toDocument.fields ∧ ofDocument d = .ok c := by
  refine ⟨_, Document.ofJson_toJson_of_isPlain id (c.isPlain_toDocument h), rfl, ?_⟩
  rw [ofDocument, ofRecord_narrowed]
  exact c.ofDocument_toDocument

/-- A series with an episode of a large number, which has been on air. -/
def airedSeries : Content :=
  .container
    { described := { canonicalUri := "/series", lastUpdated := some default }
      kind := .series
      seriesNumber := some 2 }
    [.item
      { described := { canonicalUri := "/episode" }
        kind := .episode
        episodeNumber := some 4294967296
        versions := [{ broadcasts := [{ broadcastOn := "/one", transmissionTime := default,
                                        transmissionEndTime := default }] }] }]

/-- The series is read back, although its number has become narrower. -/
theorem Content.ofDocument_ofJson_airedSeries :
    ∃ d, Document.ofJson (.generated 0) airedSeries.toDocument.toJson = .ok d ∧
      Fields.get? "seriesNumber" airedSeries.toDocument.fields = some (.int64 2) ∧
      Fields.get? "seriesNumber" d.fields = some (.int32 2) ∧ Content.ofDocument d = .ok airedSeries := by
  obtain ⟨d, hdocument, hfields, hcontent⟩ :=
    airedSeries.ofDocument_ofJson (by decide) (.generated 0)
  have hnumber : Fields.get? "seriesNumber" airedSeries.toDocument.fields = some (.int64 2) := by rfl
  refine ⟨d, hdocument, hnumber, ?_, hcontent⟩
  rw [hfields, narrowedFields_eq_map, Fields.get?_map, hnumber]
  rfl

end MediaCatalogue
