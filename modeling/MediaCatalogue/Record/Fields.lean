import MediaCatalogue.Content.Vocabulary
import MediaCatalogue.Document.Value
import MediaCatalogue.Text.TextSet

/-!
# Records

A record is the fields under which an entity is stored. What is absent or empty has no field. Reading a
record takes null for absent, wants every other field to be of its type, and names the field and the
entity when it is not.
-/

set_option autoImplicit false

namespace MediaCatalogue

/-- What a field was expected to hold. -/
inductive FieldType where
  | string
  | integer
  | boolean
  | dateTime
  | array
  | arrayOfStrings
  | arrayOfObjects
  | object

/-- The name of what a field was expected to hold. -/
def FieldType.name : FieldType → String
  | .string => "string"
  | .integer => "integer"
  | .boolean => "boolean"
  | .dateTime => "datetime"
  | .array => "array"
  | .arrayOfStrings => "array of strings"
  | .arrayOfObjects => "array of objects"
  | .object => "object"

/-- Why a record cannot be read. -/
inductive RecordError where
  | missingField (field entity : String)
  | wrongType (field entity : String) (expected : FieldType)
  | unknownKey (field key : String)
  | unknownContentType (name : String)

/-- What is said of a record that cannot be read. -/
def RecordError.message : RecordError → String
  | .missingField field entity => "Missing field " ++ field ++ " on " ++ entity
  | .wrongType field entity expected =>
    "Field " ++ field ++ " on " ++ entity ++ " is not a " ++ expected.name
  | .unknownKey field key => "Unknown value " ++ key ++ " for " ++ field
  | .unknownContentType name => "Unrecognised content type: " ++ name

namespace Record

/-! ## Writing -/

/-- The fields of those entries that have a value. -/
def ofEntries (entries : List (String × Option Value)) : Fields Value :=
  Fields.ofList (entries.filterMap fun e => e.2.map fun v => (e.1, v))

/-- A value of a vocabulary, stored as its key. -/
def keyValue {α : Type} [Vocabulary α] (a : α) : Value :=
  .string (Vocabulary.key a)

/-- The members of a set, unless it is empty. -/
def setValue (s : TextSet) : Option Value :=
  if s.isEmpty then none else some (.array (s.toList.map .string))

/-- The records of a list, unless it is empty. -/
def listValue (records : List (Fields Value)) : Option Value :=
  if records.isEmpty then none else some (.array (records.map .object))

/-! ## Reading -/

/-- The value of a field that is there and not null. -/
def value? (field : String) (fields : Fields Value) : Option Value :=
  (Fields.get? field fields).filter fun v => !v.isNull

/-- Read a field of a given type, if it is there. -/
def read {α : Type} (expected : FieldType) (view : Value → Option α) (entity field : String)
    (fields : Fields Value) : Except RecordError (Option α) :=
  match value? field fields with
  | none => .ok none
  | some v =>
    match view v with
    | some a => .ok (some a)
    | none => .error (.wrongType field entity expected)

/-- Read a text. -/
def string := read .string Value.string?

/-- Read a whole number. -/
def int := read .integer Value.int?

/-- Read a truth value. -/
def bool := read .boolean Value.bool?

/-- Read an instant. -/
def dateTime := read .dateTime Value.dateTime?

/-- Demand that a field is there. -/
def required {α : Type}
    (reader : (entity field : String) → Fields Value → Except RecordError (Option α))
    (entity field : String) (fields : Fields Value) : Except RecordError α :=
  match reader entity field fields with
  | .error e => .error e
  | .ok (some a) => .ok a
  | .ok none => .error (.missingField field entity)

/-- Read the key of a value of a vocabulary, whatever the case of its letters. -/
def keyed {α : Type} [Vocabulary α] (entity field : String) (fields : Fields Value) :
    Except RecordError (Option α) :=
  match string entity field fields with
  | .error e => .error e
  | .ok none => .ok none
  | .ok (some key) =>
    match Vocabulary.ofKey? key with
    | some a => .ok (some a)
    | none => .error (.unknownKey field key)

/-- Read the items of an array; a field that is not there has none. -/
def items (entity field : String) (fields : Fields Value) : Except RecordError (List Value) :=
  (read .array Value.array? entity field fields).map fun found => found.getD []

/-- Read a set of texts. -/
def textSet (entity field : String) (fields : Fields Value) : Except RecordError TextSet := do
  let texts ← (← items entity field fields).mapM fun v =>
    match v.string? with
    | some s => .ok s
    | none => .error (.wrongType field entity .arrayOfStrings)
  return TextSet.ofList texts

/-- Read a list of records; a field that is not there has none. -/
def list {α : Type} (reader : Fields Value → Except RecordError α) (entity field : String)
    (fields : Fields Value) : Except RecordError (List α) := do
  (← items entity field fields).mapM fun v =>
    match v with
    | .object inner => reader inner
    | _ => .error (.wrongType field entity .arrayOfObjects)

/-- Read a record inside this one, if it is there. -/
def nested {α : Type} (reader : Fields Value → Except RecordError α) (entity field : String)
    (fields : Fields Value) : Except RecordError (Option α) :=
  match value? field fields with
  | none => .ok none
  | some (.object inner) => (reader inner).map some
  | some _ => .error (.wrongType field entity .object)

end Record
end MediaCatalogue
