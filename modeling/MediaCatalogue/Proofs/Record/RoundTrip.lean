import MediaCatalogue.Proofs.Record.Fields

/-!
# Reading back what was written

Every record is read back as the entity that it was written for, and the document of a piece of
content as that content. A reader looks at no more than what the fields hold under certain names, so
it is enough that fields hold the entries of a record: what else they hold, such as the uris beside
the record in a document, makes no difference.
-/

set_option autoImplicit false

namespace MediaCatalogue

namespace TextSet

/-- A text that comes after all members is put at the end. -/
theorem insertInto_eq_append {s : String} {l : List String} (h : ∀ t ∈ l, t < s) :
    insertInto s l = l ++ [s] := by
  induction l with
  | nil => rfl
  | cons t rest ih =>
    rw [List.forall_mem_cons] at h
    have hnot : ¬ s < t := fun hst => String.lt_irrefl s (String.lt_trans hst h.1)
    have hne : s ≠ t := fun heq => String.lt_irrefl s (heq ▸ h.1)
    rw [insertInto, if_neg hnot, if_neg hne, ih h.2, List.cons_append]

/-- A set is the set of its members. -/
theorem ofList_toList (s : TextSet) : ofList s.toList = s := by
  have hfold : ∀ (rest : List String) (set : TextSet), (set.toList ++ rest).Pairwise (· < ·) →
      (rest.foldl (fun set s => set.insert s) set).toList = set.toList ++ rest := by
    intro rest
    induction rest with
    | nil => simp
    | cons t rest ih =>
      intro set hsorted
      have hlast : ∀ u ∈ set.toList, u < t := fun u hu =>
        (List.pairwise_append.1 hsorted).2.2 u hu t (by simp)
      have hinsert : (set.insert t).toList = set.toList ++ [t] := insertInto_eq_append hlast
      rw [List.foldl_cons, ih _ (by rw [hinsert]; simpa using hsorted), hinsert]
      simp
  have h := hfold s.toList empty (by simpa [empty] using s.sorted)
  have hlist : (ofList s.toList).toList = s.toList := by simpa [ofList, empty] using h
  cases s
  cases hset : ofList _
  simp_all

end TextSet

namespace Vocabulary

/-- The key of a value leads back to it. -/
def IsLawful (α : Type) [Vocabulary α] : Prop :=
  ∀ a : α, ofKey? (key a) = some a

/-- Publishers are found by their keys. -/
theorem isLawful_publisher : IsLawful Publisher := by
  intro p
  cases p <;> decide

/-- Kinds of media are found by their keys. -/
theorem isLawful_mediaType : IsLawful MediaType := by
  intro m
  cases m <;> decide

/-- Means of transport are found by their keys. -/
theorem isLawful_transportType : IsLawful TransportType := by
  intro t
  cases t <;> decide

end Vocabulary

namespace Record

/-! ## Reading a field -/

section

variable {field : String} {fields : Fields Value} (entity : String)

/-- A field without null is found as it is. -/
theorem value?_eq {o : Option Value} (h : Fields.get? field fields = o)
    (hnull : ∀ v ∈ o, v.isNull = false) : value? field fields = o := by
  rw [value?, h]
  cases o with
  | none => rfl
  | some v => simp [Option.filter, hnull v rfl]

/-- A field that holds what may be missing is read as that. -/
theorem read_eq {α : Type} {view : Value → Option α} {write : α → Value} {o : Option α}
    (expected : FieldType) (hview : ∀ a, view (write a) = some a)
    (hnull : ∀ a, (write a).isNull = false) (h : Fields.get? field fields = o.map write) :
    read expected view entity field fields = .ok o := by
  have hvalue : value? field fields = o.map write := value?_eq h (by
    cases o <;> simp [hnull])
  cases o <;> simp [read, hvalue, hview]

/-- A text, which may be missing, is read back. -/
theorem string_eq {o : Option String} (h : Fields.get? field fields = o.map .string) :
    string entity field fields = .ok o :=
  read_eq entity .string (fun _ => rfl) (fun _ => rfl) h

/-- A whole number, which may be missing, is read back. -/
theorem int_eq {o : Option Int64} (h : Fields.get? field fields = o.map .int64) :
    int entity field fields = .ok o :=
  read_eq entity .integer (fun _ => rfl) (fun _ => rfl) h

/-- A truth value, which may be missing, is read back. -/
theorem bool_eq {o : Option Bool} (h : Fields.get? field fields = o.map .bool) :
    bool entity field fields = .ok o :=
  read_eq entity .boolean (fun _ => rfl) (fun _ => rfl) h

/-- An instant, which may be missing, is read back. -/
theorem dateTime_eq {o : Option Instant} (h : Fields.get? field fields = o.map .dateTime) :
    dateTime entity field fields = .ok o :=
  read_eq entity .dateTime (fun _ => rfl) (fun _ => rfl) h

/-- A value of a vocabulary, which may be missing, is read back from its key. -/
theorem keyed_eq {α : Type} [Vocabulary α] (hlawful : Vocabulary.IsLawful α) {o : Option α}
    (h : Fields.get? field fields = o.map keyValue) : keyed entity field fields = .ok o := by
  have hstring : string entity field fields = .ok (o.map Vocabulary.key) :=
    string_eq entity (by cases o <;> exact h)
  cases o with
  | none => simp [keyed, hstring]
  | some a => simp [keyed, hstring, hlawful a]

/-- Items are read back, also when there are none and nothing was stored. -/
theorem items_eq {vs : List Value}
    (h : Fields.get? field fields = if vs = [] then none else some (.array vs)) :
    items entity field fields = .ok vs := by
  have hget : Fields.get? field fields = (if vs = [] then none else some vs).map .array := by
    rw [h]
    split <;> rfl
  have hread : read .array Value.array? entity field fields =
      .ok (if vs = [] then none else some vs) :=
    read_eq entity .array (fun _ => rfl) (fun _ => rfl) hget
  rw [items, hread]
  by_cases hvs : vs = [] <;> simp [hvs, Except.map]

/-- A list is read back when each of its elements is. -/
theorem mapM_eq {α β ε : Type} {f : β → Except ε α} {g : α → β} {as : List α}
    (h : ∀ a ∈ as, f (g a) = .ok a) : (as.map g).mapM f = .ok as := by
  induction as with
  | nil => rfl
  | cons a as ih =>
    rw [List.forall_mem_cons] at h
    rw [List.map_cons, List.mapM_cons, h.1, ih h.2]
    rfl

/-- A set of texts is read back, also when it is empty and was not stored. -/
theorem textSet_eq {s : TextSet} (h : Fields.get? field fields = setValue s) :
    textSet entity field fields = .ok s := by
  have hitems : items entity field fields = .ok (s.toList.map .string) :=
    items_eq entity (by simp [h, setValue, TextSet.isEmpty])
  rw [textSet, hitems]
  simp only [bind, Except.bind]
  rw [mapM_eq (g := Value.string) fun _ _ => rfl]
  exact congrArg Except.ok s.ofList_toList

/-- A list is read back from the records of its elements. -/
theorem list_eq {α : Type} {reader : Fields Value → Except RecordError α}
    {record : α → Fields Value} {as : List α} (hreader : ∀ a ∈ as, reader (record a) = .ok a)
    (h : Fields.get? field fields = listValue (as.map record)) :
    list reader entity field fields = .ok as := by
  have hitems : items entity field fields = .ok (as.map fun a => .object (record a)) :=
    items_eq entity (by simp [h, listValue, Function.comp_def])
  rw [list, hitems]
  simp only [bind, Except.bind]
  exact mapM_eq hreader

/-- What is stored inside, and may be missing, is read back from its record. -/
theorem nested_eq {α : Type} {reader : Fields Value → Except RecordError α}
    {record : α → Fields Value} {o : Option α} (hreader : ∀ a ∈ o, reader (record a) = .ok a)
    (h : Fields.get? field fields = o.map fun a => .object (record a)) :
    nested reader entity field fields = .ok o := by
  have hvalue : value? field fields = o.map fun a => .object (record a) := value?_eq h (by
    cases o <;> simp [Value.isNull])
  cases o with
  | none => simp [nested, hvalue]
  | some a => simp [nested, hvalue, hreader a rfl, Except.map]

/-- A field that must be there is read back when it is there. -/
theorem required_eq {α : Type}
    {reader : (entity field : String) → Fields Value → Except RecordError (Option α)} {a : α}
    (h : reader entity field fields = .ok (some a)) :
    required reader entity field fields = .ok a := by
  rw [required, h]

end

/-! ## Records of entities -/

/-- Fields hold entries: under the name of each what it says. -/
def Holds (entries : List (String × Option Value)) (fields : Fields Value) : Prop :=
  ∀ e ∈ entries, Fields.get? e.1 fields = e.2

/-- The fields of entries with names of their own hold them. -/
theorem holds_ofEntries {entries : List (String × Option Value)}
    (h : (entries.map Prod.fst).Nodup) : Holds entries (ofEntries entries) := by
  intro e he
  rw [get?_ofEntries e.1 h, Fields.get?_of_mem h he]
  rfl

/-- Fields that hold the entries of two parts hold those of each. -/
theorem Holds.append {entries more : List (String × Option Value)} {fields : Fields Value}
    (h : Holds (entries ++ more) fields) : Holds entries fields ∧ Holds more fields :=
  List.forall_mem_append.1 h

end Record

open Record

/-! ## Versions and what is beneath them -/

/-- A policy is read back from its record. -/
theorem Policy.ofRecord_toRecord (p : Policy) : ofRecord p.toRecord = .ok p := by
  have h : Holds _ p.toRecord := holds_ofEntries (by simp)
  simp only [Holds, List.forall_mem_cons] at h
  obtain ⟨hcountries, hstart, hend, -⟩ := h
  rw [ofRecord, textSet_eq _ hcountries, dateTime_eq _ hstart, dateTime_eq _ hend]
  rfl

/-- A location is read back from its record. -/
theorem Location.ofRecord_toRecord (l : Location) : ofRecord l.toRecord = .ok l := by
  have h : Holds _ l.toRecord := holds_ofEntries (by simp)
  simp only [Holds, List.forall_mem_cons] at h
  obtain ⟨huri, havailable, htransport, hpolicy, -⟩ := h
  rw [ofRecord, string_eq _ huri, bool_eq (o := some l.available) _ havailable,
    keyed_eq _ Vocabulary.isLawful_transportType htransport,
    nested_eq _ (fun p _ => p.ofRecord_toRecord) hpolicy]
  rfl

/-- An encoding is read back from its record. -/
theorem Encoding.ofRecord_toRecord (e : Encoding) : ofRecord e.toRecord = .ok e := by
  have h : Holds _ e.toRecord := holds_ofEntries (by simp)
  simp only [Holds, List.forall_mem_cons] at h
  obtain ⟨hformat, hrate, hvideo, haudio, hlocations, -⟩ := h
  rw [ofRecord, string_eq _ hformat, int_eq _ hrate, string_eq _ hvideo, string_eq _ haudio,
    list_eq _ (fun l _ => l.ofRecord_toRecord) hlocations]
  rfl

/-- A broadcast is read back from its record, in which how long it took stands as well. -/
theorem Broadcast.ofRecord_toRecord (b : Broadcast) : ofRecord b.toRecord = .ok b := by
  have h : Holds _ b.toRecord := holds_ofEntries (by simp)
  simp only [Holds, List.forall_mem_cons] at h
  obtain ⟨hchannel, hstart, hend, -, hrepeat, hid, -⟩ := h
  rw [ofRecord, required_eq _ (string_eq (o := some b.broadcastOn) _ hchannel),
    required_eq _ (dateTime_eq (o := some b.transmissionTime) _ hstart),
    required_eq _ (dateTime_eq (o := some b.transmissionEndTime) _ hend), bool_eq _ hrepeat,
    string_eq _ hid]
  rfl

/-- A version is read back from its record. -/
theorem Version.ofRecord_toRecord (v : Version) : ofRecord v.toRecord = .ok v := by
  have h : Holds _ v.toRecord := holds_ofEntries (by simp)
  simp only [Holds, List.forall_mem_cons] at h
  obtain ⟨huri, hduration, hpublished, hbroadcasts, hencodings, -⟩ := h
  rw [ofRecord, string_eq _ huri, int_eq _ hduration, int_eq _ hpublished,
    list_eq _ (fun b _ => b.ofRecord_toRecord) hbroadcasts,
    list_eq _ (fun e _ => e.ofRecord_toRecord) hencodings]
  rfl

/-! ## Content -/

/-- What is said of content is read back from fields that hold it. -/
theorem Described.ofRecord_eq (entity : String) {d : Described} {fields : Fields Value}
    (h : Holds d.toEntries fields) : ofRecord entity fields = .ok d := by
  simp only [Holds, toEntries, List.forall_mem_cons] at h
  obtain ⟨huri, hcurie, haliases, htitle, hdescription, hpublisher, hgenres, htags, hmedia, hupdated,
    -⟩ := h
  rw [ofRecord, required_eq _ (string_eq (o := some d.canonicalUri) _ huri), string_eq _ hcurie,
    textSet_eq _ haliases, string_eq _ htitle, string_eq _ hdescription,
    keyed_eq _ Vocabulary.isLawful_publisher hpublisher, textSet_eq _ hgenres, textSet_eq _ htags,
    keyed_eq _ Vocabulary.isLawful_mediaType hmedia, dateTime_eq _ hupdated]
  rfl

/-- Fields hold a record, if perhaps with uris of their own. -/
def HoldRecord (record fields : Fields Value) : Prop :=
  ∀ name, name ≠ "lookup" → Fields.get? name fields = Fields.get? name record

/-- Fields that hold a record hold its entries, since none of these is the one for uris. -/
theorem HoldRecord.holds {entries : List (String × Option Value)} {fields : Fields Value}
    (h : HoldRecord (ofEntries entries) fields) (hnodup : (entries.map Prod.fst).Nodup)
    (hlookup : ∀ e ∈ entries, e.1 ≠ "lookup") : Holds entries fields := by
  intro e he
  rw [h e.1 (hlookup e he)]
  exact holds_ofEntries hnodup e he

/-- A kind of item is found by its type. -/
theorem ItemKind.ofTypeName?_typeName (k : ItemKind) : ofTypeName? k.typeName = some k := by
  cases k <;> decide

/-- A kind of container is found by its type. -/
theorem ContainerKind.ofTypeName?_typeName (k : ContainerKind) :
    ofTypeName? k.typeName = some k := by
  cases k <;> decide

/-- The type of a container is none of items. -/
theorem ItemKind.ofTypeName?_container (k : ContainerKind) : ofTypeName? k.typeName = none := by
  cases k <;> decide

section

variable {fields : Fields Value}

/-- An item is read back from fields that hold its record. -/
theorem Item.ofRecord_eq {i : Item} (h : HoldRecord i.toRecord fields) :
    ofRecord fields = .ok i := by
  obtain ⟨hdescribed, hown⟩ :=
    (HoldRecord.holds h (by simp [Described.toEntries]) (by simp [Described.toEntries])).append
  simp only [Holds, List.forall_mem_cons] at hown
  obtain ⟨htype, hlong, hcontainer, hepisode, hseries, hversions, -⟩ := hown
  rw [ofRecord, string_eq (o := some i.kind.typeName) _ htype]
  simp only [bind, Except.bind, ItemKind.ofTypeName?_typeName]
  rw [Described.ofRecord_eq _ hdescribed, bool_eq (o := some i.isLongForm) _ hlong,
    string_eq _ hcontainer, int_eq _ hepisode, int_eq _ hseries,
    list_eq _ (fun v _ => v.ofRecord_toRecord) hversions]
  rfl

/-- A container without its contents is read back from fields that hold its record. -/
theorem Container.ofRecord_eq {c : Container} {contents : List (Fields Value)}
    (h : HoldRecord (c.toRecord contents) fields) : ofRecord fields = .ok c := by
  obtain ⟨hdescribed, hown⟩ :=
    (HoldRecord.holds h (by simp [Described.toEntries]) (by simp [Described.toEntries])).append
  simp only [Holds, List.forall_mem_cons] at hown
  obtain ⟨htype, hseries, -⟩ := hown
  rw [ofRecord, string_eq (o := some c.kind.typeName) _ htype]
  simp only [bind, Except.bind, ContainerKind.ofTypeName?_typeName]
  rw [Described.ofRecord_eq _ hdescribed, int_eq _ hseries]
  rfl

namespace Content

/-- The type under which content is stored. -/
def typeName : Content → String
  | .item i => i.kind.typeName
  | .container c _ => c.kind.typeName
  | .group _ _ => groupTypeName

/-- The record of content says its type. -/
theorem get?_type (c : Content) : Fields.get? "type" c.toRecord = some (.string c.typeName) := by
  cases c <;>
    exact (get?_ofEntries "type" (by simp [Described.toEntries])).trans
      (by simp [Described.toEntries, Fields.get?, typeName])

/-- The type is read back. -/
theorem type_eq {c : Content} (h : HoldRecord c.toRecord fields) :
    required string "content" "type" fields = .ok c.typeName := by
  have htype := (h "type" (by decide)).trans c.get?_type
  exact required_eq _ (string_eq (o := some c.typeName) _ htype)

/-- The contents stand in the record as the records of the members; there is nothing where there are
none. -/
theorem contents_eq {c : Content} (h : HoldRecord c.toRecord fields) :
    Fields.get? "contents" fields = listValue (allToRecords c.members) := by
  rw [h "contents" (by decide)]
  cases c <;>
    exact (get?_ofEntries "contents" (by simp [Described.toEntries])).trans
      (by simp [Described.toEntries, Fields.get?, members, allToRecords, listValue])

/-- Content is read back when its members are. -/
theorem ofRecordWith_eq {c : Content} {contents : String → Except RecordError (List Content)}
    (h : HoldRecord c.toRecord fields) (hcontents : ∀ entity, contents entity = .ok c.members) :
    ofRecordWith contents fields = .ok c := by
  rw [ofRecordWith, type_eq h]
  cases c with
  | item i =>
    simp only [bind, Except.bind, typeName, ItemKind.ofTypeName?_typeName, Option.isSome_some,
      if_true]
    rw [Item.ofRecord_eq h]
    rfl
  | container c ms =>
    simp only [bind, Except.bind, typeName, ItemKind.ofTypeName?_container, Option.isSome_none,
      ContainerKind.ofTypeName?_typeName, Option.isSome_some, if_true, containerOfRecord]
    rw [Container.ofRecord_eq h, hcontents]
    rfl
  | group d ms =>
    have hdescribed : Holds d.toEntries fields :=
      (HoldRecord.holds h (by simp [Described.toEntries]) (by simp [Described.toEntries])).append.1
    have hitem : ItemKind.ofTypeName? groupTypeName = none := by decide
    have hcontainer : ContainerKind.ofTypeName? groupTypeName = none := by decide
    simp only [bind, Except.bind, typeName, hitem, hcontainer, Option.isSome_none, if_true,
      groupOfRecord]
    rw [Described.ofRecord_eq _ hdescribed, hcontents]
    rfl

/-- The contents are read from the field of that name; there are none without it. -/
theorem contentsOfFields_eq (entity : String) (fields : List (String × Value)) :
    contentsOfFields entity fields =
      match Fields.get? "contents" fields with
      | none => .ok []
      | some v => contentsOfValue entity v := by
  induction fields with
  | nil => rw [contentsOfFields, Fields.get?_nil]
  | cons f rest ih =>
    obtain ⟨name, v⟩ := f
    rw [contentsOfFields, Fields.get?]
    split
    · rfl
    · exact ih

/-- Contents are read back when the items of their field are. -/
theorem contentsOfFields_listValue {entity : String} {cs : List Content}
    (hget : Fields.get? "contents" fields = listValue (allToRecords cs))
    (hitems : contentsOfItems entity ((allToRecords cs).map .object) = .ok cs) :
    contentsOfFields entity fields = .ok cs := by
  rw [contentsOfFields_eq, hget, listValue]
  cases cs with
  | nil => rfl
  | cons c cs =>
    simp only [allToRecords, List.isEmpty_cons, Bool.false_eq_true, if_false, contentsOfValue]
    exact hitems

end Content

end

mutual

/-- Content is read back from fields that hold its record. -/
theorem Content.ofRecord_eq : ∀ (c : Content) (fields : Fields Value),
    HoldRecord c.toRecord fields → Content.ofRecord fields = .ok c
  | .item _, _, h => ofRecordWith_eq h fun _ => contentsOfFields_listValue (contents_eq h) rfl
  | .container _ ms, _, h => ofRecordWith_eq h fun entity =>
      contentsOfFields_listValue (contents_eq h) (contentsOfItems_eq entity ms)
  | .group _ ms, _, h => ofRecordWith_eq h fun entity =>
      contentsOfFields_listValue (contents_eq h) (contentsOfItems_eq entity ms)

/-- Content is read back one after another. -/
theorem Content.contentsOfItems_eq (entity : String) : ∀ cs : List Content,
    contentsOfItems entity ((allToRecords cs).map .object) = .ok cs
  | [] => rfl
  | c :: cs => by
    have hc : contentOfItem entity (.object c.toRecord) = .ok c :=
      Content.ofRecord_eq c c.toRecord fun _ _ => rfl
    rw [allToRecords, List.map_cons, contentsOfItems, hc, contentsOfItems_eq entity cs]

end

/-- The document of a piece of content is read back as that content. -/
theorem Content.ofDocument_toDocument (c : Content) : ofDocument c.toDocument = .ok c :=
  Content.ofRecord_eq c _ fun _ hname => c.get?_toDocument hname

/-- **Nothing is lost in a record.** Content of any shape is read back from its document, and from its
record where it lies in other content. So is every version, and all that lies beneath one. -/
theorem Record.read_written :
    (∀ c : Content, Content.ofDocument c.toDocument = .ok c ∧ Content.ofRecord c.toRecord = .ok c) ∧
      (∀ v : Version, Version.ofRecord v.toRecord = .ok v) ∧
      (∀ b : Broadcast, Broadcast.ofRecord b.toRecord = .ok b) ∧
      (∀ e : Encoding, Encoding.ofRecord e.toRecord = .ok e) ∧
      (∀ l : Location, Location.ofRecord l.toRecord = .ok l) ∧
      ∀ p : Policy, Policy.ofRecord p.toRecord = .ok p := by
  refine ⟨?_, Version.ofRecord_toRecord, Broadcast.ofRecord_toRecord, Encoding.ofRecord_toRecord,
    Location.ofRecord_toRecord, Policy.ofRecord_toRecord⟩
  intro c
  have hrecord : HoldRecord c.toRecord c.toRecord := fun _ _ => rfl
  exact ⟨c.ofDocument_toDocument, c.ofRecord_eq c.toRecord hrecord⟩

end MediaCatalogue
