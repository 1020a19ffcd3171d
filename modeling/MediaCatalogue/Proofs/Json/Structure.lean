import MediaCatalogue.Json.Structure
import MediaCatalogue.Proofs.Calendar.Lenient
import MediaCatalogue.Proofs.Record.RoundTrip

/-!
# Reading structures as they are written

Each kind of value is read back from what is written for it, and none is written as null. So is a
list of such values and, in a field, a value that may be absent, which is what null says there. For a
structure this is enough: under the name of each of its fields stands what was written for the field,
since no two have the same name, and whatever else stands there is not looked at.
-/

set_option autoImplicit false

namespace MediaCatalogue

/-- Every value is found by its key, written exactly so. -/
def Vocabulary.IsExact (α : Type) [Vocabulary α] : Prop :=
  ∀ a : α, ofExactKey? (key a) = some a

namespace Json

/-! ## Values -/

/-- What is written is read back, and it is told from null. -/
structure ReadsBack {α : Type} (read : Json → Option α) (write : α → Json) : Prop where
  back : ∀ a, read (write a) = some a
  notNull : ∀ a, write a ≠ .null

/-- Texts are read back. -/
theorem readsBack_string : ReadsBack string? .string :=
  ⟨fun _ => rfl, fun _ => Json.noConfusion⟩

/-- Truth values are read back. -/
theorem readsBack_bool : ReadsBack bool? .bool :=
  ⟨fun _ => rfl, fun _ => Json.noConfusion⟩

/-- Whole numbers of 64 bits are read back. -/
theorem readsBack_int64 : ReadsBack int64? ofInt64 := by
  refine ⟨fun n => ?_, fun _ => Json.noConfusion⟩
  have hlower : -9223372036854775808 ≤ n.toInt := n.le_toInt
  have hupper : n.toInt ≤ 9223372036854775807 := Int.le_of_lt_add_one n.toInt_lt
  rw [ofInt64, int64?, if_pos ⟨hlower, hupper⟩, Int64.ofInt_toInt]

/-- Instants are read back from their texts. -/
theorem readsBack_instant : ReadsBack instant? ofInstant := by
  refine ⟨fun t => ?_, fun _ => Json.noConfusion⟩
  rw [ofInstant, instant?, Rfc3339.parseLenient_toText]
  rfl

/-- Values of a vocabulary are read back from their keys. -/
theorem readsBack_keyed {α : Type} [Vocabulary α] (h : Vocabulary.IsExact α) (placement : Placement) :
    ReadsBack (keyed? placement) (ofKeyed (α := α)) :=
  ⟨h, fun _ => Json.noConfusion⟩

section

variable {α : Type} {read : Json → Option α} {write : α → Json}

/-- Lists are read back if their elements are. -/
theorem ReadsBack.list (h : ReadsBack read write) :
    ReadsBack (list? read) fun as => .array (as.map write) := by
  refine ⟨fun as => ?_, fun _ => Json.noConfusion⟩
  rw [list?]
  induction as with
  | nil => rfl
  | cons a as ih =>
    rw [List.map_cons, List.mapM_cons, h.back, ih]
    rfl

/-- Sets of texts are read back from the list of their members. -/
theorem readsBack_textSet : ReadsBack textSet? ofTextSet := by
  refine ⟨fun s => ?_, fun _ => Json.noConfusion⟩
  rw [textSet?, ofTextSet, readsBack_string.list.back, Option.map_some, TextSet.ofList_toList]

/-! ## Fields -/

variable {name : String} {fields : List (String × Json)} (h : ReadsBack read write)

include h

/-- A field that must be there is read back. -/
theorem required?_eq {a : α} (hget : Fields.get? name fields = some (write a)) :
    required? name read fields = some a := by
  rw [required?, hget, Option.bind_some, h.back]

/-- A field that is there is read back, whatever it would be without. -/
theorem withDefault?_eq {a : α} (default : α) (hget : Fields.get? name fields = some (write a)) :
    withDefault? name default read fields = some a := by
  rw [withDefault?, hget]
  exact h.back a

/-- A value that may be absent is written as null if it is, and only then. -/
theorem optional?_eq {o : Option α} (hget : Fields.get? name fields = some (ofOption write o)) :
    optional? name read fields = some o := by
  rw [optional?, hget]
  cases o with
  | none => rfl
  | some a =>
    have hread : (read (write a)).map some = some (some a) := by rw [h.back, Option.map_some]
    rw [ofOption]
    cases hwritten : write a with
    | null => exact absurd hwritten (h.notNull a)
    | _ => simpa [hwritten] using hread

end

/-! ## Structures -/

/-- Fields hold members: under the name of each what it says. -/
def Holds (members fields : List (String × Json)) : Prop :=
  ∀ m ∈ members, Fields.get? m.1 fields = some m.2

/-- Fields that hold the members of two parts hold those of each. -/
theorem Holds.append {members more fields : List (String × Json)} (h : Holds (members ++ more) fields) :
    Holds members fields ∧ Holds more fields :=
  List.forall_mem_append.1 h

section

variable {members : List (String × Json)} (hnodup : (members.map Prod.fst).Nodup)

include hnodup

/-- Members with names of their own hold themselves. -/
theorem holds_self : Holds members members :=
  fun _ hm => Fields.get?_of_mem hnodup hm

/-- Members with names of their own are not repeated under any names. -/
theorem uniqueMembers?_object (names : List String) : uniqueMembers? names (.object members) = some members := by
  have hunique : ∀ name, (members.filter fun m => m.1 == name).length ≤ 1 := fun name => by
    have hcount := List.nodup_iff_count.1 hnodup name
    rwa [List.count_eq_countP, List.countP_map, List.countP_eq_length_filter] at hcount
  rw [uniqueMembers?, if_pos (List.all_eq_true.2 fun name _ => decide_eq_true (hunique name))]

/-- The fields of a structure that is written as an object are its members. -/
theorem structure_spec {j : Json} (hj : j = .object members) :
    (∀ names, structureFields? names j = some members) ∧ Holds members members := by
  subst hj
  exact ⟨uniqueMembers?_object hnodup, holds_self hnodup⟩

end

end Json

end MediaCatalogue
