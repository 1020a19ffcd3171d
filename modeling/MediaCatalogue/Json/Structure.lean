import MediaCatalogue.Calendar.Rfc3339
import MediaCatalogue.Content.Vocabulary
import MediaCatalogue.Json.Basic
import MediaCatalogue.Text.TextSet

/-!
# Structures as JSON

A structure is written as an object with a member for each field, in the order of its declaration, null
where an optional field is absent. It is read from an object, in which other members are ignored and no
field may be repeated, or from an array of its fields in order, from which fields may be missing at the
end.
-/

set_option autoImplicit false

namespace MediaCatalogue.Json

/-! ## Writing fields -/

/-- An optional value, null when absent. -/
def ofOption {α : Type} (write : α → Json) : Option α → Json
  | some a => write a
  | none => .null

/-- A whole number of 64 bits. -/
def ofInt64 (n : Int64) : Json :=
  .int n.toInt

/-- An instant as text. -/
def ofInstant (t : Instant) : Json :=
  .string t.toText

/-- A value of a vocabulary as its key. -/
def ofKeyed {α : Type} [Vocabulary α] (a : α) : Json :=
  .string (Vocabulary.key a)

/-- A set of texts as the list of its members. -/
def ofTextSet (s : TextSet) : Json :=
  .array (s.toList.map .string)

/-! ## Reading fields -/

/-- The members of an object none of which is repeated under one of the names. -/
def uniqueMembers? (names : List String) : Json → Option (List (String × Json))
  | .object members =>
    if names.all fun n => (members.filter fun m => m.1 == n).length ≤ 1 then some members else none
  | _ => none

/-- The fields of a structure with the given field names: the members of an object, or the items of an
array, which stand for the fields in order. -/
def structureFields? (names : List String) : Json → Option (List (String × Json))
  | .array items => if items.length ≤ names.length then some (names.zip items) else none
  | j => uniqueMembers? names j

/-- Read a field that must be there. -/
def required? {α : Type} (name : String) (read : Json → Option α) (fields : List (String × Json)) :
    Option α :=
  (Fields.get? name fields).bind read

/-- Read a field that has a value when it is missing. -/
def withDefault? {α : Type} (name : String) (default : α) (read : Json → Option α)
    (fields : List (String × Json)) : Option α :=
  match Fields.get? name fields with
  | some j => read j
  | none => some default

/-- Read a field that may be missing or null. -/
def optional? {α : Type} (name : String) (read : Json → Option α) (fields : List (String × Json)) :
    Option (Option α) :=
  match Fields.get? name fields with
  | some .null => some none
  | some j => (read j).map some
  | none => some none

/-- Read a truth value. -/
def bool? : Json → Option Bool
  | .bool b => some b
  | _ => none

/-- Read a whole number of 64 bits. -/
def int64? : Json → Option Int64
  | .int n =>
    if -9223372036854775808 ≤ n ∧ n ≤ 9223372036854775807 then some (Int64.ofInt n) else none
  | _ => none

/-- Read an instant from a text in any of the forms that the lenient reader takes. -/
def instant? : Json → Option Instant
  | .string s => (Rfc3339.parseLenient s).toOption
  | _ => none

/-- How strictly JSON is read: on its own, or as a part of something that was taken whole before it was looked
into. A part may be less exact about its form. -/
inductive Placement where
  | alone
  | part
deriving DecidableEq

/-- Read the key of a value of a vocabulary: a text, or an object with that one member, which is null; in a part
the member may be an empty object. -/
def keyed? {α : Type} [Vocabulary α] (placement : Placement) : Json → Option α
  | .string k => Vocabulary.ofExactKey? k
  | .object [(k, .null)] => Vocabulary.ofExactKey? k
  | .object [(k, .object [])] => if placement = .part then Vocabulary.ofExactKey? k else none
  | _ => none

/-- Read a list item by item; one that cannot be read spoils it. -/
def list? {α : Type} (read : Json → Option α) : Json → Option (List α)
  | .array items => items.mapM read
  | _ => none

/-- Read a set of texts from a list, in which a text may be repeated. -/
def textSet? (j : Json) : Option TextSet :=
  (list? string? j).map TextSet.ofList

end MediaCatalogue.Json
