import MediaCatalogue.Document.ExtendedJson
import MediaCatalogue.Json.Reader
import MediaCatalogue.Proofs.Document.Fields

/-!
# Values through JSON and back

JSON does not say everything about a value: a whole number has no width in it, an instant and a pattern
are objects like others, and a double that is no real number is null. So a value is read back from its
JSON form up to the widths of its whole numbers, if nothing in it is taken for something else, and exactly
if its widths are those that reading chooses. These conditions leave out nothing: all that is ever read
meets them, as far as its instants are whole milliseconds.

The first half of the file says what a value and a JSON value contain, the second follows the reader over
the two trees.
-/

set_option autoImplicit false

namespace MediaCatalogue

/-! ## JSON values in memory -/

namespace Json

mutual

/-- What a JSON value can be in memory: its whole numbers fit a word, its doubles are real numbers, and
the members of its objects are in order, with no name twice. -/
def WellFormed : Json → Prop
  | .int n => fitsWord n = true
  | .float x => x.isFinite = true
  | .array items => WellFormedItems items
  | .object members => Fields.Sorted members ∧ WellFormedMembers members
  | _ => True

/-- What the items of an array can be in memory. -/
def WellFormedItems : List Json → Prop
  | [] => True
  | j :: js => j.WellFormed ∧ WellFormedItems js

/-- What the members of an object can be in memory, apart from their order. -/
def WellFormedMembers : List (String × Json) → Prop
  | [] => True
  | (_, j) :: ms => j.WellFormed ∧ WellFormedMembers ms

end

/-- Items are well formed one by one. -/
theorem wellFormedItems_iff (js : List Json) : WellFormedItems js ↔ ∀ j ∈ js, j.WellFormed :=
  iff_forall_of_cons trivial (fun _ _ => Iff.rfl) js

/-- Members are well formed one by one. -/
theorem wellFormedMembers_iff (ms : Fields Json) :
    WellFormedMembers ms ↔ ∀ m ∈ ms, m.2.WellFormed :=
  iff_forall_of_cons trivial (fun _ _ => Iff.rfl) ms

/-- What holds of an array when it holds of the items, and of an object when it holds of the members,
holds of all JSON values, if it holds of the rest. -/
@[elab_as_elim]
theorem induction {P : Json → Prop} (null : P .null) (bool : ∀ b, P (.bool b)) (int : ∀ n, P (.int n))
    (float : ∀ x, P (.float x)) (string : ∀ s, P (.string s))
    (array : ∀ items, (∀ j ∈ items, P j) → P (.array items))
    (object : ∀ members : Fields Json, (∀ m ∈ members, P m.2) → P (.object members)) (j : Json) : P j :=
  @Json.rec P (fun items => ∀ j ∈ items, P j) (fun members => ∀ m ∈ members, P m.2) (fun m => P m.2)
    null bool int float string array object
    (by simp) (fun _ _ hj hjs => List.forall_mem_cons.2 ⟨hj, hjs⟩)
    (by simp) (fun _ _ hm hms => List.forall_mem_cons.2 ⟨hm, hms⟩) (fun _ _ hj => hj) j

end Json

namespace Value

/-! ## What a value contains -/

/-- Items are well formed one by one. -/
theorem wellFormedItems_iff (vs : List Value) : WellFormedItems vs ↔ ∀ v ∈ vs, v.WellFormed :=
  iff_forall_of_cons trivial (fun _ _ => Iff.rfl) vs

/-- Fields are well formed one by one. -/
theorem wellFormedFields_iff (fs : Fields Value) : WellFormedFields fs ↔ ∀ f ∈ fs, f.2.WellFormed :=
  iff_forall_of_cons trivial (fun _ _ => Iff.rfl) fs

/-- What holds of an array when it holds of the items, and of an object when it holds of the fields, holds
of all values, if it holds of the rest. -/
@[elab_as_elim]
theorem induction {P : Value → Prop} (null : P .null) (bool : ∀ b, P (.bool b))
    (int32 : ∀ n, P (.int32 n)) (int64 : ∀ n, P (.int64 n)) (float : ∀ x, P (.float x))
    (string : ∀ s, P (.string s)) (array : ∀ items, (∀ v ∈ items, P v) → P (.array items))
    (object : ∀ fields : Fields Value, (∀ f ∈ fields, P f.2) → P (.object fields))
    (dateTime : ∀ t, P (.dateTime t)) (regex : ∀ p i, P (.regex p i)) (v : Value) : P v :=
  @Value.rec P (fun items => ∀ v ∈ items, P v) (fun fields => ∀ f ∈ fields, P f.2) (fun f => P f.2)
    null bool int32 int64 float string array object dateTime regex
    (by simp) (fun _ _ hv hvs => List.forall_mem_cons.2 ⟨hv, hvs⟩)
    (by simp) (fun _ _ hf hfs => List.forall_mem_cons.2 ⟨hf, hfs⟩) (fun _ _ hv => hv) v

/-- A value is or has within it, at any depth, another. -/
inductive Contains : Value → Value → Prop where
  | refl (v : Value) : Contains v v
  | item {items : List Value} {v u : Value} : v ∈ items → Contains v u → Contains (.array items) u
  | field {fields : Fields Value} {f : String × Value} {u : Value} :
    f ∈ fields → Contains f.2 u → Contains (.object fields) u

section

variable {P : Value → Prop}

/-- What an array contains is itself and what its items contain. -/
theorem forall_contains_array {items : List Value} :
    (∀ u, (array items).Contains u → P u) ↔ P (.array items) ∧ ∀ v ∈ items, ∀ u, v.Contains u → P u := by
  constructor
  · exact fun h => ⟨h _ (.refl _), fun v hv u hu => h u (.item hv hu)⟩
  · rintro ⟨hself, hitems⟩ u hu
    cases hu with
    | refl => exact hself
    | item hv hu => exact hitems _ hv u hu

/-- What an object contains is itself and what its fields contain. -/
theorem forall_contains_object {fields : Fields Value} :
    (∀ u, (object fields).Contains u → P u) ↔
      P (.object fields) ∧ ∀ f ∈ fields, ∀ u, f.2.Contains u → P u := by
  constructor
  · exact fun h => ⟨h _ (.refl _), fun f hf u hu => h u (.field hf hu)⟩
  · rintro ⟨hself, hfields⟩ u hu
    cases hu with
    | refl => exact hself
    | field hf hu => exact hfields _ hf u hu

/-- What is neither an array nor an object contains itself only. -/
theorem forall_contains_of_leaf {v : Value} (harray : v.array? = none) (hobject : v.object? = none) :
    (∀ u, v.Contains u → P u) ↔ P v := by
  constructor
  · exact fun h => h v (.refl v)
  · intro h u hu
    cases hu with
    | refl => exact h
    | item => simp [array?] at harray
    | field => simp [object?] at hobject

end

/-! ## What JSON tells of a value -/

/-- A whole number of the larger width does not fit the smaller one. -/
def IsWide : Value → Prop
  | .int64 n => ¬ (-2147483648 ≤ n.toInt ∧ n.toInt ≤ 2147483647)
  | _ => True

/-- An instant is a whole number of milliseconds, and no leap second. -/
def IsWhole : Value → Prop
  | .dateTime t => t.isWholeMillis = true
  | _ => True

/-- A double is a real number, and an object has no member by which it would be taken for an instant or
for a pattern. -/
def IsUnambiguous : Value → Prop
  | .float x => x.isFinite = true
  | .object fields =>
    Fields.get? "$date" fields = none ∧ ∀ s, Fields.get? "$regex" fields ≠ some (.string s)
  | _ => True

mutual

/-- The value with all whole numbers in the narrowest width. -/
def narrowed : Value → Value
  | .int64 n => ofInt n.toInt
  | .array items => .array (narrowedItems items)
  | .object fields => .object (narrowedFields fields)
  | v => v

/-- Items with all whole numbers in the narrowest width. -/
def narrowedItems : List Value → List Value
  | [] => []
  | v :: vs => v.narrowed :: narrowedItems vs

/-- Fields with all whole numbers in the narrowest width. -/
def narrowedFields : List (String × Value) → List (String × Value)
  | [] => []
  | (name, v) :: fs => (name, v.narrowed) :: narrowedFields fs

end

/-- Items are narrowed one by one. -/
theorem narrowedItems_eq_map (vs : List Value) : narrowedItems vs = vs.map narrowed :=
  eq_map_of_cons rfl (fun _ _ => rfl) vs

/-- Fields are narrowed one by one, under their names. -/
theorem narrowedFields_eq_map (fs : Fields Value) :
    narrowedFields fs = fs.map fun f => (f.1, f.2.narrowed) :=
  eq_map_of_cons rfl (fun _ _ => rfl) fs

/-- Items are written one by one. -/
theorem itemsToJson_eq_map (vs : List Value) : itemsToJson vs = vs.map toJson :=
  eq_map_of_cons rfl (fun _ _ => rfl) vs

/-- Fields are written one by one, under their names. -/
theorem fieldsToJson_eq_map (fs : Fields Value) :
    fieldsToJson fs = fs.map fun f => (f.1, f.2.toJson) :=
  eq_map_of_cons rfl (fun _ _ => rfl) fs

/-! ## Numbers and instants -/

/-- A number of 32 bits is read back in its width. -/
theorem ofInt_toInt_int32 (n : Int32) : ofInt n.toInt = .int32 n := by
  have hlower := Int32.le_toInt n
  have hupper := Int32.toInt_lt n
  rw [ofInt, if_pos (by omega), Int32.ofInt_toInt]

/-- A number of 64 bits that does not fit into 32 is read back in its width. -/
theorem ofInt_toInt_int64 {n : Int64} (hn : (Value.int64 n).IsWide) : ofInt n.toInt = .int64 n := by
  have hlower := Int64.le_toInt n
  have hupper := Int64.toInt_lt n
  rw [ofInt, if_neg hn, if_pos (by omega), Int64.ofInt_toInt]

/-- Values that are wide throughout are as narrow as they can be. -/
theorem narrowed_eq_self {v : Value} (h : ∀ u, v.Contains u → u.IsWide) : v.narrowed = v := by
  induction v using Value.induction with
  | int64 n => exact ofInt_toInt_int64 (h _ (.refl _))
  | array items ih =>
    rw [forall_contains_array] at h
    rw [narrowed, narrowedItems_eq_map, List.map_congr_left fun v hv => ih v hv (h.2 v hv), List.map_id']
  | object fields ih =>
    rw [forall_contains_object] at h
    have hfields : fields.map (fun f => (f.1, f.2.narrowed)) = fields.map fun f => f :=
      List.map_congr_left fun f hf => Prod.ext rfl (ih f hf (h.2 f hf))
    rw [narrowed, narrowedFields_eq_map, hfields, List.map_id']
  | _ => rfl

end Value

/-- An instant in whole milliseconds is that of its milliseconds. -/
theorem Instant.ofMillis?_toMillis {t : Instant} (h : t.isWholeMillis = true) :
    ofMillis? t.toMillis = some t := by
  rw [isWholeMillis, Bool.and_eq_true, beq_iff_eq, decide_eq_true_eq, nanosPerSecond] at h
  have hseconds : (t.seconds * 1000 + (t.nanos : Int) / 1000000) / 1000 = t.seconds := by omega
  have hnanos : ((t.seconds * 1000 + (t.nanos : Int) / 1000000) % 1000).toNat * 1000000 = t.nanos := by
    omega
  rw [ofMillis?, toMillis, hseconds, hnanos, of?, dif_pos t.valid]

/-- What is read from milliseconds is a whole number of them. -/
theorem Instant.isWholeMillis_of_ofMillis? {millis : Int} {t : Instant} (h : ofMillis? millis = some t) :
    t.isWholeMillis = true := by
  rw [ofMillis?, of?] at h
  split at h <;> cases h
  have hnanos : (millis % 1000).toNat * 1000000 % 1000000 = 0 := Nat.mul_mod_left _ _
  have hsecond : (millis % 1000).toNat * 1000000 < nanosPerSecond := by
    rw [nanosPerSecond]
    omega
  simp [isWholeMillis, hnanos, hsecond]

/-- A whole number of 64 bits without a sign, too large for one with a sign, is rounded to a real number. -/
theorem Double.isFinite_ofInt {n : Int} (hlower : 9223372036854775808 ≤ n)
    (hupper : n ≤ 18446744073709551615) : (ofInt n).isFinite = true := by
  have hlog : Nat.log2 n.natAbs = 63 := (Nat.log2_eq_iff (by omega)).2 ⟨by omega, by omega⟩
  have hone : Nat.log2 1 = 0 := by decide
  have hratio : ratioLog2 n.natAbs 1 = 63 := by
    rw [ratioLog2, hlog, hone]
    have hless : ¬ n.natAbs < 1 <<< 63 := by
      rw [Nat.one_shiftLeft]
      omega
    simpa using hless
  have hunits : divNearest n.natAbs 2048 ≤ n.natAbs / 2048 + 1 := by
    unfold divNearest
    dsimp only
    split <;> omega
  have hmagnitude : nearestMagnitude n.natAbs 1 ≤ 1085 * 2 ^ 52 + (n.natAbs / 2048 + 1) := by
    -- the last place is worth 2 ^ 11, so the exponent counts 11 + 1074 from the smallest double
    rw [nearestMagnitude, if_neg (by omega), hratio]
    exact (min_le_left _ _).trans (Nat.add_le_add_left hunits _)
  have hbound : nearestMagnitude n.natAbs 1 < infinityBits := by
    unfold infinityBits
    omega
  have hpositive : ¬ n < 0 := by omega
  have hbits : (ofInt n).bits.toNat = nearestMagnitude n.natAbs 1 := by
    have hsize : infinityBits < UInt64.size := by decide
    simp only [ofInt, ofMagnitude, hpositive, decide_false, Bool.false_eq_true, if_false]
    exact UInt64.toNat_ofNat_of_lt' (hbound.trans hsize)
  rw [isFinite, magnitude, hbits, decide_eq_true_eq]
  exact (Nat.mod_le _ _).trans_lt hbound

namespace Value

/-! ## Reading rows of values -/

/-- Items are read if each of them is, and to what each of them is. -/
theorem itemsOfJson_ok_iff {js : List Json} {vs : List Value} :
    itemsOfJson js = .ok vs ↔ List.Forall₂ (fun j v => ofJson j = .ok v) js vs := by
  induction js generalizing vs with
  | nil => simp [itemsOfJson, eq_comm]
  | cons j js ih =>
    rw [itemsOfJson, List.forall₂_cons_left_iff]
    cases hj : ofJson j with
    | error e => simp
    | ok v =>
      cases hjs : itemsOfJson js with
      | error e =>
        have hnone : ∀ vs, ¬ List.Forall₂ (fun j v => ofJson j = .ok v) js vs := by
          intro vs hvs
          rw [ih.2 hvs] at hjs
          cases hjs
        simp [hnone]
      | ok read =>
        constructor
        · rintro ⟨⟩
          exact ⟨v, read, rfl, ih.1 hjs, rfl⟩
        · rintro ⟨v', vs', hv', hvs', rfl⟩
          cases hv'
          rw [ih.2 hvs'] at hjs
          cases hjs
          rfl

/-- Fields are read one after another, and each is put in under the name of its member. -/
theorem fieldsOfJson_ok_iff {ms : List (String × Json)} {done fields : Fields Value} :
    fieldsOfJson done ms = .ok fields ↔
      ∃ read, List.Forall₂ (fun m f => f.1 = m.1 ∧ ofJson m.2 = .ok f.2) ms read ∧
        fields = Fields.insertAll read done := by
  induction ms generalizing done with
  | nil => simp [fieldsOfJson, Fields.insertAll, eq_comm]
  | cons m ms ih =>
    obtain ⟨name, j⟩ := m
    rw [fieldsOfJson]
    cases hj : ofJson j with
    | error e => simp [List.forall₂_cons_left_iff, hj]
    | ok v =>
      dsimp only
      rw [ih]
      constructor
      · rintro ⟨read, hread, rfl⟩
        exact ⟨(name, v) :: read, .cons ⟨rfl, hj⟩ hread, rfl⟩
      · rintro ⟨_, hread, rfl⟩
        obtain ⟨⟨name', v'⟩, rest, ⟨rfl, hv'⟩, hrest, rfl⟩ := List.forall₂_cons_left_iff.1 hread
        cases hj.symm.trans hv'
        exact ⟨rest, hrest, rfl⟩

/-- Members in order are read as fields in the same order. -/
theorem fieldsOfJson_ok_iff_of_sorted {ms : Fields Json} (hs : Fields.Sorted ms) {fields : Fields Value} :
    fieldsOfJson [] ms = .ok fields ↔
      List.Forall₂ (fun m f => f.1 = m.1 ∧ ofJson m.2 = .ok f.2) ms fields := by
  have hsorted : ∀ {read : Fields Value},
      List.Forall₂ (fun m f => f.1 = m.1 ∧ ofJson m.2 = .ok f.2) ms read →
        Fields.insertAll read [] = read := by
    intro read hread
    have hnames := Fields.names_forall₂ (R := fun j v => ofJson j = .ok v) hread
    exact (Fields.sorted_iff_names.2 (hnames ▸ Fields.sorted_iff_names.1 hs)).insertAll_nil
  rw [fieldsOfJson_ok_iff]
  constructor
  · rintro ⟨read, hread, rfl⟩
    rwa [hsorted hread]
  · exact fun hread => ⟨fields, hread, (hsorted hread).symm⟩

/-- What an object can be read as: an instant, a pattern, or fields. -/
theorem ofJson_object_cases {members : Fields Json} {v : Value} (h : ofJson (.object members) = .ok v) :
    (∃ date t, Fields.get? "$date" members = some date ∧ readDate date = .ok t ∧ v = .dateTime t) ∨
      (∃ pattern, Fields.get? "$date" members = none ∧
        (Fields.get? "$regex" members).bind Json.string? = some pattern ∧
        v = .regex pattern (ignoresCase ((Fields.get? "$options" members).bind Json.string?))) ∨
      ∃ fields, Fields.get? "$date" members = none ∧
        (Fields.get? "$regex" members).bind Json.string? = none ∧
        fieldsOfJson [] members = .ok fields ∧ v = .object fields := by
  rw [ofJson] at h
  split at h
  · rename_i date hdate
    cases hread : readDate date with
    | error e =>
      rw [hread] at h
      cases h
    | ok t =>
      rw [hread] at h
      cases h
      exact Or.inl ⟨date, t, hdate, hread, rfl⟩
  · rename_i hdate
    split at h
    · rename_i pattern hpattern
      cases h
      exact Or.inr (Or.inl ⟨pattern, hdate, hpattern, rfl⟩)
    · rename_i hpattern
      split at h <;> cases h
      rename_i fields hfields
      exact Or.inr (Or.inr ⟨fields, hdate, hpattern, hfields, rfl⟩)

/-! ## Reading what was written -/

/-- A value is written as a text just if it is that text. -/
theorem string?_toJson (v : Value) : v.toJson.string? = v.string? := by
  cases v with
  | float x =>
    rw [toJson]
    split <;> rfl
  | _ => rfl

/-- A value has a text just if it is that text. -/
theorem string?_eq_some_iff {v : Value} {s : String} : v.string? = some s ↔ v = .string s := by
  cases v <;> simp [string?]

/-- **Up to widths a value is read back**, if nothing in it is taken for something else. -/
theorem ofJson_toJson_eq_narrowed {v : Value} (hv : v.WellFormed)
    (h : ∀ u, v.Contains u → u.IsWhole ∧ u.IsUnambiguous) : ofJson v.toJson = .ok v.narrowed := by
  induction v using Value.induction with
  | int32 n => exact congrArg Except.ok (ofInt_toInt_int32 n)
  | float x =>
    have hfinite : x.isFinite = true := (h _ (.refl _)).2
    rw [toJson, if_pos hfinite]
    rfl
  | dateTime t =>
    have hwhole : t.isWholeMillis = true := (h _ (.refl _)).1
    have hread : readDate (.int t.toMillis) = .ok t := by rw [readDate, t.ofMillis?_toMillis hwhole]
    simp [toJson, ofJson, Fields.get?, hread, Except.map, narrowed]
  | regex pattern ignoreCase => cases ignoreCase <;> rfl
  | array items ih =>
    rw [forall_contains_array] at h
    rw [WellFormed, wellFormedItems_iff] at hv
    have hitems : itemsOfJson (itemsToJson items) = .ok (narrowedItems items) := by
      rw [itemsToJson_eq_map, narrowedItems_eq_map, itemsOfJson_ok_iff, List.forall₂_map_left_iff,
        List.forall₂_map_right_iff, List.forall₂_same]
      exact fun v hmem => ih v hmem (hv v hmem) (h.2 v hmem)
    rw [toJson, ofJson, hitems, narrowed]
  | object fields ih =>
    rw [forall_contains_object] at h
    rw [WellFormed, wellFormedFields_iff] at hv
    obtain ⟨hdate, hpattern⟩ := h.1.2
    -- the members have the names of the fields, so the reader takes them for fields
    have hnodate : Fields.get? "$date" (fieldsToJson fields) = none := by
      rw [fieldsToJson_eq_map, Fields.get?_map, hdate, Option.map_none]
    have hnopattern : (Fields.get? "$regex" (fieldsToJson fields)).bind Json.string? = none := by
      rw [fieldsToJson_eq_map, Fields.get?_map, Option.bind_map, Option.bind_eq_none_iff]
      intro v hget
      rw [Function.comp_apply, string?_toJson, Option.eq_none_iff_forall_ne_some]
      intro s hs
      exact hpattern s (hget.trans (congrArg some (string?_eq_some_iff.1 hs)))
    have hfields : fieldsOfJson [] (fieldsToJson fields) = .ok (narrowedFields fields) := by
      rw [fieldsToJson_eq_map, fieldsOfJson_ok_iff_of_sorted (hv.1.map toJson), narrowedFields_eq_map,
        List.forall₂_map_left_iff, List.forall₂_map_right_iff, List.forall₂_same]
      exact fun f hmem => ⟨rfl, ih f hmem (hv.2 f hmem) (h.2 f hmem)⟩
    rw [toJson, ofJson, hnodate]
    dsimp only
    rw [hnopattern]
    dsimp only
    rw [hfields, narrowed]
  | _ => rfl

/-! ## What is ever read -/

/-- A text is read just from JSON that is that text. -/
theorem string?_of_ofJson {j : Json} {v : Value} (h : ofJson j = .ok v) : v.string? = j.string? := by
  cases j with
  | int n =>
    cases h
    unfold ofInt
    split
    · rfl
    · split <;> rfl
  | array items =>
    rw [ofJson] at h
    split at h <;> cases h
    rfl
  | object members =>
    rcases ofJson_object_cases h with ⟨_, _, -, -, rfl⟩ | ⟨_, -, -, rfl⟩ | ⟨_, -, -, -, rfl⟩ <;> rfl
  | _ =>
    cases h
    rfl

/-- A whole number has no fields that could be out of order. -/
theorem wellFormed_ofInt (n : Int) : (ofInt n).WellFormed := by
  unfold ofInt
  split
  · trivial
  · split <;> trivial

/-- A whole number is read in the narrower width if it fits, and is else too large for it or becomes a
real number. -/
theorem of_ofInt {n : Int} (hn : Json.fitsWord n = true) :
    ∀ u, (ofInt n).Contains u → u.IsWide ∧ u.IsUnambiguous := by
  simp only [Json.fitsWord, Bool.and_eq_true, decide_eq_true_eq] at hn
  unfold ofInt
  split
  · exact (forall_contains_of_leaf rfl rfl).2 ⟨trivial, trivial⟩
  · split
    · rename_i hsmall hfits
      have hvalue : (Int64.ofInt n).toInt = n := Int64.toInt_ofInt_of_le (by omega) (by omega)
      exact (forall_contains_of_leaf rfl rfl).2 ⟨by rw [IsWide, hvalue]; exact hsmall, trivial⟩
    · exact (forall_contains_of_leaf rfl rfl).2
        ⟨trivial, Double.isFinite_ofInt (by omega) (by omega)⟩

/-- What is read has its whole numbers in the narrowest width, and nothing in it is taken for something
else when it is written. -/
theorem of_ofJson {j : Json} {v : Value} (hj : j.WellFormed) (h : ofJson j = .ok v) :
    v.WellFormed ∧ ∀ u, v.Contains u → u.IsWide ∧ u.IsUnambiguous := by
  induction j using Json.induction generalizing v with
  | int n =>
    cases h
    exact ⟨wellFormed_ofInt n, of_ofInt hj⟩
  | float x =>
    cases h
    exact ⟨trivial, (forall_contains_of_leaf rfl rfl).2 ⟨trivial, hj⟩⟩
  | array items ih =>
    rw [Json.WellFormed, Json.wellFormedItems_iff] at hj
    rw [ofJson] at h
    split at h <;> cases h
    rename_i vs hvs
    have hread : ∀ v ∈ vs, v.WellFormed ∧ ∀ u, v.Contains u → u.IsWide ∧ u.IsUnambiguous := by
      intro v hv
      obtain ⟨j, hmem, hv⟩ := exists_left_of_forall₂ (itemsOfJson_ok_iff.1 hvs) hv
      exact ih j hmem (hj j hmem) hv
    rw [WellFormed, wellFormedItems_iff, forall_contains_array]
    exact ⟨fun v hv => (hread v hv).1, ⟨trivial, trivial⟩, fun v hv => (hread v hv).2⟩
  | object members ih =>
    rw [Json.WellFormed, Json.wellFormedMembers_iff] at hj
    rcases ofJson_object_cases h with ⟨_, t, -, -, rfl⟩ | ⟨pattern, -, -, rfl⟩ |
      ⟨fields, hdate, hpattern, hfields, rfl⟩
    · exact ⟨trivial, (forall_contains_of_leaf rfl rfl).2 ⟨trivial, trivial⟩⟩
    · exact ⟨trivial, (forall_contains_of_leaf rfl rfl).2 ⟨trivial, trivial⟩⟩
    · have hstep := (fieldsOfJson_ok_iff_of_sorted hj.1).1 hfields
      have hread : ∀ f ∈ fields, f.2.WellFormed ∧ ∀ u, f.2.Contains u → u.IsWide ∧ u.IsUnambiguous := by
        intro f hf
        obtain ⟨m, hmem, -, hf⟩ := exists_left_of_forall₂ hstep hf
        exact ih m hmem (hj.2 m hmem) hf
      have hsorted : Fields.Sorted fields := by
        rw [Fields.sorted_iff_names, Fields.names_forall₂ (R := fun j v => ofJson j = .ok v) hstep]
        exact Fields.sorted_iff_names.1 hj.1
      rw [WellFormed, wellFormedFields_iff, forall_contains_object]
      refine ⟨⟨hsorted, fun f hf => (hread f hf).1⟩, ⟨trivial, ?_, fun s hs => ?_⟩,
        fun f hf => (hread f hf).2⟩
      · rcases Fields.get?_forall₂ (R := fun j v => ofJson j = .ok v) hstep "$date" with h | ⟨j, v, h, -⟩
        · exact h.2
        · rw [hdate] at h
          cases h
      · -- a text under the name of a pattern would have been read as one
        rcases Fields.get?_forall₂ (R := fun j v => ofJson j = .ok v) hstep "$regex" with
          h | ⟨j, v, h, hv, hread⟩
        · rw [h.2] at hs
          cases hs
        · rw [hv] at hs
          cases hs
          rw [h, Option.bind_some, ← string?_of_ofJson hread] at hpattern
          cases hpattern
  | _ =>
    cases h
    exact ⟨trivial, (forall_contains_of_leaf rfl rfl).2 ⟨trivial, trivial⟩⟩

/-! ## The law of the round trip -/

/-- The JSON form of a value can be in memory. -/
theorem wellFormed_toJson {v : Value} (hv : v.WellFormed) : v.toJson.WellFormed := by
  have hword : ∀ n : Int, -9223372036854775808 ≤ n → n ≤ 18446744073709551615 → (Json.int n).WellFormed :=
    fun n hlower hupper => by simp [Json.WellFormed, Json.fitsWord, hlower, hupper]
  induction v using Value.induction with
  | int32 n =>
    have hlower := Int32.le_toInt n
    have hupper := Int32.toInt_lt n
    exact hword _ (by omega) (by omega)
  | int64 n =>
    have hlower := Int64.le_toInt n
    have hupper := Int64.toInt_lt n
    exact hword _ (by omega) (by omega)
  | float x =>
    rw [toJson]
    split
    · assumption
    · trivial
  | dateTime t =>
    obtain ⟨hlower, hupper, hnanos, -⟩ := t.valid
    rw [nanosPerSecond] at hnanos
    have hmillis : (Json.int t.toMillis).WellFormed := by
      refine hword _ ?_ ?_ <;> rw [Instant.toMillis] <;> omega
    rw [toJson, Json.WellFormed, Json.wellFormedMembers_iff]
    exact ⟨List.pairwise_singleton _ _, by simpa using hmillis⟩
  | regex pattern ignoreCase =>
    rw [toJson, Json.WellFormed, Json.wellFormedMembers_iff]
    cases ignoreCase
    · exact ⟨List.pairwise_singleton _ _, by simp [Json.WellFormed]⟩
    · have hnames : "$options" < "$regex" := by decide
      exact ⟨List.pairwise_pair.2 hnames, by simp [Json.WellFormed]⟩
  | array items ih =>
    rw [WellFormed, wellFormedItems_iff] at hv
    rw [toJson, Json.WellFormed, Json.wellFormedItems_iff, itemsToJson_eq_map, List.forall_mem_map]
    exact fun v hmem => ih v hmem (hv v hmem)
  | object fields ih =>
    rw [WellFormed, wellFormedFields_iff] at hv
    rw [toJson, Json.WellFormed, Json.wellFormedMembers_iff, fieldsToJson_eq_map, List.forall_mem_map]
    exact ⟨hv.1.map toJson, fun f hmem => ih f hmem (hv.2 f hmem)⟩
  | _ => trivial

/-- A value that is read back has instants of whole milliseconds only. -/
theorem isWhole_of_ofJson_toJson {v : Value} (hv : v.WellFormed) (h : ofJson v.toJson = .ok v) :
    ∀ u, v.Contains u → u.IsWhole := by
  induction v using Value.induction with
  | dateTime t =>
    refine (forall_contains_of_leaf rfl rfl).2 ?_
    simp only [toJson, ofJson, Fields.get?, if_true, readDate] at h
    split at h
    · rename_i t' ht
      cases h
      exact Instant.isWholeMillis_of_ofMillis? ht
    · cases h
  | array items ih =>
    rw [WellFormed, wellFormedItems_iff] at hv
    rw [toJson, ofJson] at h
    split at h <;> cases h
    rename_i hitems
    rw [itemsToJson_eq_map, itemsOfJson_ok_iff, List.forall₂_map_left_iff, List.forall₂_same] at hitems
    exact forall_contains_array.2 ⟨trivial, fun v hmem => ih v hmem (hv v hmem) (hitems v hmem)⟩
  | object fields ih =>
    rw [WellFormed, wellFormedFields_iff] at hv
    rw [toJson] at h
    rcases ofJson_object_cases h with ⟨_, _, -, -, h⟩ | ⟨_, -, -, h⟩ | ⟨_, -, -, hfields, h⟩ <;> cases h
    rw [fieldsToJson_eq_map, fieldsOfJson_ok_iff_of_sorted (hv.1.map toJson), List.forall₂_map_left_iff,
      List.forall₂_same] at hfields
    exact forall_contains_object.2 ⟨trivial, fun f hmem => ih f hmem (hv.2 f hmem) (hfields f hmem).2⟩
  | _ => exact (forall_contains_of_leaf rfl rfl).2 trivial

/-- **Values through JSON and back.** A value is read back from its JSON form if, and only if, every whole
number in it is in the narrowest width, every double a real number, every instant a whole number of
milliseconds and no leap second, and no object would be taken for an instant or for a pattern. All that is
ever read, from whatever JSON, is such a value, as far as its instants are whole. -/
theorem ofJson_toJson :
    (∀ v : Value, v.WellFormed →
        (ofJson v.toJson = .ok v ↔ ∀ u, v.Contains u → u.IsWide ∧ u.IsWhole ∧ u.IsUnambiguous)) ∧
      ∀ (j : Json) (v : Value), j.WellFormed → ofJson j = .ok v → (∀ u, v.Contains u → u.IsWhole) →
        v.WellFormed ∧ (∀ u, v.Contains u → u.IsWide ∧ u.IsWhole ∧ u.IsUnambiguous) ∧
          ofJson v.toJson = .ok v := by
  have hback : ∀ v : Value, v.WellFormed →
      (∀ u, v.Contains u → u.IsWide ∧ u.IsWhole ∧ u.IsUnambiguous) → ofJson v.toJson = .ok v := by
    intro v hv h
    rw [ofJson_toJson_eq_narrowed hv fun u hu => (h u hu).2, narrowed_eq_self fun u hu => (h u hu).1]
  refine ⟨fun v hv => ⟨fun h u hu => ?_, hback v hv⟩, fun j v hj h hwhole => ?_⟩
  · obtain ⟨-, hread⟩ := of_ofJson (wellFormed_toJson hv) h
    exact ⟨(hread u hu).1, isWhole_of_ofJson_toJson hv h u hu, (hread u hu).2⟩
  · obtain ⟨hv, hread⟩ := of_ofJson hj h
    have hall : ∀ u, v.Contains u → u.IsWide ∧ u.IsWhole ∧ u.IsUnambiguous := fun u hu =>
      ⟨(hread u hu).1, hwhole u hu, (hread u hu).2⟩
    exact ⟨hv, hall, hback v hv hall⟩

/-- An instant, a large number under a name that a pattern would have, and a pattern. -/
def mixedValue : Value :=
  .object [("$regex", .int64 4294967296), ("at", .array [.dateTime default]), ("title", .regex "^A" true)]

/-- An instant with a member beside it, in an array with a number that fits no signed word. -/
def mixedJson : Json :=
  .array [.object [("$date", .int 1500), ("zone", .null)], .int 9223372036854775808]

/-- The value is read back. So is what is read from the JSON, where the member beside the instant is lost
and the number has become a double. -/
theorem ofJson_toJson_mixedValue :
    ofJson mixedValue.toJson = .ok mixedValue ∧
      ∃ t x, ofJson mixedJson = .ok (.array [.dateTime t, .float x]) ∧
        ofJson (Value.array [.dateTime t, .float x]).toJson = .ok (.array [.dateTime t, .float x]) := by
  obtain ⟨hback, hread⟩ := ofJson_toJson
  constructor
  · have hsorted : Fields.Sorted [("$regex", Value.int64 4294967296), ("at", .array [.dateTime default]),
        ("title", .regex "^A" true)] := Fields.sorted_iff_names.2 (by decide)
    have hwide : (Value.int64 4294967296).IsWide := by
      rw [IsWide]
      decide
    refine (hback mixedValue ⟨hsorted, by simp [WellFormedFields, WellFormed, WellFormedItems]⟩).2 ?_
    refine forall_contains_object.2 ⟨⟨trivial, trivial, by decide, by simp [Fields.get?]⟩, ?_⟩
    simp only [List.forall_mem_cons]
    exact ⟨(forall_contains_of_leaf rfl rfl).2 ⟨hwide, trivial, trivial⟩,
      forall_contains_array.2 ⟨⟨trivial, trivial, trivial⟩,
        List.forall_mem_singleton.2 ((forall_contains_of_leaf rfl rfl).2 ⟨trivial, rfl, trivial⟩)⟩,
      (forall_contains_of_leaf rfl rfl).2 ⟨trivial, trivial, trivial⟩, by simp⟩
  · have hsorted : Fields.Sorted [("$date", Json.int 1500), ("zone", .null)] :=
      Fields.sorted_iff_names.2 (by decide)
    have hjson : mixedJson.WellFormed :=
      ⟨⟨hsorted, by simp [Json.WellFormedMembers, Json.WellFormed, Json.fitsWord]⟩, rfl, trivial⟩
    have hvalue : ofJson mixedJson = .ok (.array [.dateTime ⟨1, 500000000, by decide⟩,
        .float (Double.ofInt 9223372036854775808)]) := rfl
    obtain ⟨-, -, hagain⟩ := hread mixedJson _ hjson hvalue (by
      rw [forall_contains_array, List.forall_mem_cons, List.forall_mem_singleton]
      exact ⟨trivial, (forall_contains_of_leaf rfl rfl).2 rfl,
        (forall_contains_of_leaf rfl rfl).2 trivial⟩)
    exact ⟨_, _, hvalue, hagain⟩

end Value
end MediaCatalogue
