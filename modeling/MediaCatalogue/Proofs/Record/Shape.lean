import MediaCatalogue.Proofs.Document.ExtendedJson
import MediaCatalogue.Record.Content
import MediaCatalogue.Store.Filter

/-!
# What records hold

Records are made of truth values, whole numbers of the larger width, texts, instants, lists and other
records. The fields of a record are in order, and none of their names is that of an operator; the instants
are those of the entity it was written for. This is said once for the whole tree, and what else is true of
the values in a record follows from it.
-/

set_option autoImplicit false

namespace MediaCatalogue

namespace Value

/-- A value as it may be found in a record, with instants of a certain sort. -/
inductive IsPlain (D : Instant → Prop) : Value → Prop where
  | bool (b : Bool) : IsPlain D (.bool b)
  | int64 (n : Int64) : IsPlain D (.int64 n)
  | string (s : String) : IsPlain D (.string s)
  | dateTime {t : Instant} : D t → IsPlain D (.dateTime t)
  | array {items : List Value} : (∀ v ∈ items, IsPlain D v) → IsPlain D (.array items)
  | object {fields : Fields Value} : Fields.Sorted fields →
    (∀ f ∈ fields, Filter.isOperator f.1 = false) → (∀ f ∈ fields, IsPlain D f.2) →
      IsPlain D (.object fields)

namespace IsPlain

attribute [simp] bool int64 string

variable {D : Instant → Prop} {v : Value}

/-- An instant may be found in a record if it is of the sort. -/
@[simp]
theorem dateTime_iff {t : Instant} : (Value.dateTime t).IsPlain D ↔ D t := by
  constructor
  · rintro ⟨⟩
    assumption
  · exact .dateTime

/-- What may be found in a record has its fields in order. -/
theorem wellFormed (h : v.IsPlain D) : v.WellFormed := by
  induction h with
  | array _ ih =>
    rw [WellFormed, wellFormedItems_iff]
    exact ih
  | object hsorted _ _ ih =>
    rw [WellFormed, wellFormedFields_iff]
    exact ⟨hsorted, ih⟩
  | _ => trivial

/-- What is within a value of a record may itself be found in one. -/
theorem of_contains {u : Value} (h : v.IsPlain D) (hu : v.Contains u) : u.IsPlain D := by
  induction hu with
  | refl => exact h
  | item hmem _ ih =>
    cases h with
    | array hitems => exact ih (hitems _ hmem)
  | field hmem _ ih =>
    cases h with
    | object _ _ hfields => exact ih (hfields _ hmem)

/-- The instants of a record are of the sort that it is said to have. -/
theorem isWhole (h : v.IsPlain fun t => t.isWholeMillis = true) : v.IsWhole := by
  cases h with
  | dateTime hwhole => exact hwhole
  | _ => trivial

/-- Nothing in a record would be taken for an instant or a pattern, whose names are those of operators. -/
theorem isUnambiguous (h : v.IsPlain D) : v.IsUnambiguous := by
  cases h with
  | @object fields _ hnames _ =>
    have hnone : ∀ name, Filter.isOperator name = true → Fields.get? name fields = none := by
      intro name hname
      rw [Option.eq_none_iff_forall_ne_some]
      intro v hv
      have hnot := hnames _ (Fields.mem_of_get? hv)
      rw [hname] at hnot
      cases hnot
    have hdate := hnone "$date" (by decide)
    have hpattern := hnone "$regex" (by decide)
    exact ⟨hdate, fun s => by simp [hpattern]⟩
  | _ => trivial

end IsPlain

end Value

open Value

/-! ## Entries of a record -/

namespace Record

variable {D : Instant → Prop}

/-- The value of an entry, if it has one, is as in a record. -/
def EntryPlain (D : Instant → Prop) (o : Option Value) : Prop :=
  ∀ v ∈ o, v.IsPlain D

/-- An entry with a value is plain if the value is. -/
@[simp]
theorem entryPlain_some (v : Value) : EntryPlain D (some v) ↔ v.IsPlain D := by
  simp [EntryPlain]

/-- An entry that may be missing is plain if what is there is. -/
@[simp]
theorem entryPlain_map {α : Type} (write : α → Value) (o : Option α) :
    EntryPlain D (o.map write) ↔ ∀ a ∈ o, (write a).IsPlain D := by
  simp [EntryPlain]

/-- A key is plain. -/
@[simp]
theorem isPlain_keyValue {α : Type} [Vocabulary α] (a : α) : (keyValue a).IsPlain D :=
  .string _

/-- A list of texts is plain. -/
theorem isPlain_strings (texts : List String) : (Value.array (texts.map .string)).IsPlain D :=
  .array (List.forall_mem_map.2 fun _ _ => .string _)

/-- The entry of a set of texts is plain. -/
@[simp]
theorem entryPlain_setValue (s : TextSet) : EntryPlain D (setValue s) := by
  intro v hv
  rw [setValue] at hv
  split at hv
  · cases hv
  · cases hv
    exact isPlain_strings s.toList

/-- The entry of a list is plain if the records in it are. -/
theorem entryPlain_listValue {records : List (Fields Value)}
    (h : ∀ r ∈ records, (Value.object r).IsPlain D) : EntryPlain D (listValue records) := by
  intro v hv
  rw [listValue] at hv
  split at hv
  · cases hv
  · cases hv
    exact .array (List.forall_mem_map.2 h)

/-- A record is plain when its entries are, and no name is that of an operator. -/
theorem isPlain_ofEntries {entries : List (String × Option Value)}
    (hnames : ∀ e ∈ entries, Filter.isOperator e.1 = false)
    (h : ∀ e ∈ entries, EntryPlain D e.2) : (Value.object (ofEntries entries)).IsPlain D := by
  have hentry : ∀ f ∈ ofEntries entries, ∃ e ∈ entries, e.1 = f.1 ∧ e.2 = some f.2 := by
    intro f hf
    rcases Fields.mem_insertAll hf with hf | hf
    · obtain ⟨e, he, hvalue⟩ := List.mem_filterMap.1 hf
      obtain ⟨v, hv, rfl⟩ := Option.map_eq_some_iff.1 hvalue
      exact ⟨e, he, rfl, hv⟩
    · simp at hf
  refine .object (Fields.sorted_nil.insertAll _) (fun f hf => ?_) fun f hf => ?_
  · obtain ⟨e, he, hname, -⟩ := hentry f hf
    exact hname ▸ hnames e he
  · obtain ⟨e, he, -, hvalue⟩ := hentry f hf
    exact h e he f.2 hvalue

end Record

open Record

/-! ## Instants -/

/-- The instants of a policy: when it begins and when it ends. -/
def Policy.dates (p : Policy) : List Instant :=
  p.availabilityStart.toList ++ p.availabilityEnd.toList

/-- The instants of a location, which are those of its policy. -/
def Location.dates (l : Location) : List Instant :=
  l.policy.toList.flatMap Policy.dates

/-- The instants of an encoding, which are those of its locations. -/
def Encoding.dates (e : Encoding) : List Instant :=
  e.availableAt.flatMap Location.dates

/-- The instants of a broadcast: when it began and when it ended. -/
def Broadcast.dates (b : Broadcast) : List Instant :=
  [b.transmissionTime, b.transmissionEndTime]

/-- The instants of a version, which are those of its broadcasts and encodings. -/
def Version.dates (v : Version) : List Instant :=
  v.broadcasts.flatMap Broadcast.dates ++ v.manifestedAs.flatMap Encoding.dates

/-- The instant in what is said of content: when it was updated last. -/
def Described.dates (d : Described) : List Instant :=
  d.lastUpdated.toList

/-- The instants of an item, those of its versions included. -/
def Item.dates (i : Item) : List Instant :=
  i.described.dates ++ i.versions.flatMap Version.dates

namespace Content

mutual

/-- All instants in a piece of content, those of its members included. -/
def dates : Content → List Instant
  | .item i => i.dates
  | .container c ms => c.described.dates ++ datesOfAll ms
  | .group d ms => d.dates ++ datesOfAll ms

/-- All instants in a list of content. -/
def datesOfAll : List Content → List Instant
  | [] => []
  | c :: cs => c.dates ++ datesOfAll cs

end

end Content

/-! ## Records of entities -/

section

variable {D : Instant → Prop}

/-- The stored list of some records is plain, if each record is. -/
theorem Record.entryPlain_listValue_map {α : Type} {record : α → Fields Value} {dates : α → List Instant}
    {as : List α} (hrecord : ∀ a, (∀ t ∈ dates a, D t) → (Value.object (record a)).IsPlain D)
    (h : ∀ t ∈ as.flatMap dates, D t) : EntryPlain D (listValue (as.map record)) :=
  entryPlain_listValue <| List.forall_mem_map.2 fun a ha =>
    hrecord a fun t ht => h t (List.mem_flatMap_of_mem ha ht)

/-- The record of a policy is plain. -/
theorem Policy.isPlain_toRecord (p : Policy) (h : ∀ t ∈ p.dates, D t) :
    (Value.object p.toRecord).IsPlain D := by
  rw [dates, List.forall_mem_append] at h
  exact isPlain_ofEntries (by simp [Filter.isOperator]) (by simpa using h)

/-- The record of a location is plain. -/
theorem Location.isPlain_toRecord (l : Location) (h : ∀ t ∈ l.dates, D t) :
    (Value.object l.toRecord).IsPlain D := by
  have hpolicy : ∀ p ∈ l.policy, (Value.object p.toRecord).IsPlain D := fun p hp =>
    p.isPlain_toRecord fun t ht => h t (List.mem_flatMap_of_mem (Option.mem_toList.2 hp) ht)
  exact isPlain_ofEntries (by simp [Filter.isOperator]) (by simpa using hpolicy)

/-- The record of an encoding is plain. -/
theorem Encoding.isPlain_toRecord (e : Encoding) (h : ∀ t ∈ e.dates, D t) :
    (Value.object e.toRecord).IsPlain D := by
  have hlocations := entryPlain_listValue_map Location.isPlain_toRecord h
  exact isPlain_ofEntries (by simp [Filter.isOperator]) (by simp [hlocations])

/-- The record of a broadcast is plain. -/
theorem Broadcast.isPlain_toRecord (b : Broadcast) (h : ∀ t ∈ b.dates, D t) :
    (Value.object b.toRecord).IsPlain D := by
  rw [dates, List.forall_mem_cons, List.forall_mem_singleton] at h
  exact isPlain_ofEntries (by simp [Filter.isOperator]) (by simpa using h)

/-- The record of a version is plain. -/
theorem Version.isPlain_toRecord (v : Version) (h : ∀ t ∈ v.dates, D t) :
    (Value.object v.toRecord).IsPlain D := by
  rw [dates, List.forall_mem_append] at h
  have hbroadcasts := entryPlain_listValue_map Broadcast.isPlain_toRecord h.1
  have hencodings := entryPlain_listValue_map Encoding.isPlain_toRecord h.2
  exact isPlain_ofEntries (by simp [Filter.isOperator]) (by simp [hbroadcasts, hencodings])

/-- The record of content is plain when its own entries are. -/
theorem Described.isPlain_append (d : Described) (hd : ∀ t ∈ d.dates, D t)
    {entries : List (String × Option Value)} (hnames : ∀ e ∈ entries, Filter.isOperator e.1 = false)
    (h : ∀ e ∈ entries, EntryPlain D e.2) :
    (Value.object (ofEntries (d.toEntries ++ entries))).IsPlain D := by
  refine isPlain_ofEntries (List.forall_mem_append.2 ⟨?_, hnames⟩) (List.forall_mem_append.2 ⟨?_, h⟩)
  · simp [toEntries, Filter.isOperator]
  · simpa [toEntries, dates] using hd

/-- The record of an item is plain. -/
theorem Item.isPlain_toRecord (i : Item) (h : ∀ t ∈ i.dates, D t) :
    (Value.object i.toRecord).IsPlain D := by
  rw [dates, List.forall_mem_append] at h
  have hversions := entryPlain_listValue_map Version.isPlain_toRecord h.2
  exact i.described.isPlain_append h.1 (by simp [Filter.isOperator]) (by simp [hversions])

end

namespace Content

variable {D : Instant → Prop}

mutual

/-- The record of content is plain if its instants are of the sort, at any depth. -/
theorem isPlain_toRecord : ∀ c : Content, (∀ t ∈ c.dates, D t) → (Value.object c.toRecord).IsPlain D
  | .item i, h => i.isPlain_toRecord h
  | .container c ms, h => by
    rw [dates, List.forall_mem_append] at h
    have hmembers := entryPlain_listValue (isPlain_allToRecords ms h.2)
    exact c.described.isPlain_append h.1 (by simp [Filter.isOperator]) (by simp [hmembers])
  | .group d ms, h => by
    rw [dates, List.forall_mem_append] at h
    have hmembers := entryPlain_listValue (isPlain_allToRecords ms h.2)
    exact d.isPlain_append h.1 (by simp [Filter.isOperator]) (by simp [hmembers])

/-- The records of a list of content are plain. -/
theorem isPlain_allToRecords : ∀ cs : List Content, (∀ t ∈ datesOfAll cs, D t) →
    ∀ r ∈ allToRecords cs, (Value.object r).IsPlain D
  | [], _ => by simp [allToRecords]
  | c :: cs, h => by
    rw [datesOfAll, List.forall_mem_append] at h
    rw [allToRecords, List.forall_mem_cons]
    exact ⟨isPlain_toRecord c h.1, isPlain_allToRecords cs h.2⟩

end

/-- **What documents hold.** The fields of a document of content are as in a record, and its instants are
those of the content. -/
theorem isPlain_toDocument (c : Content) (h : ∀ t ∈ c.dates, D t) :
    (Value.object c.toDocument.fields).IsPlain D := by
  cases c.isPlain_toRecord h with
  | object hsorted hnames hfields =>
    have hlookup : Filter.isOperator "lookup" = false := by decide
    refine .object (hsorted.insert _ _) (fun f hf => ?_) fun f hf => ?_
    · rcases Fields.mem_insert hf with rfl | hf
      · exact hlookup
      · exact hnames f hf
    · rcases Fields.mem_insert hf with rfl | hf
      · exact isPlain_strings _
      · exact hfields f hf

end Content

end MediaCatalogue
