import MediaCatalogue.Document.Value
import MediaCatalogue.Document.Error

/-!
# Values as JSON

Values have a JSON form in which an instant is an object with the one member `$date`, in milliseconds, and
a pattern an object with `$regex` and, when case is ignored, `$options`. Reading also takes an instant as
text, gives a whole number the narrower width where it fits, and drops the members beside `$date` and
`$regex`.
-/

set_option autoImplicit false

namespace MediaCatalogue.Value

mutual

/-- The JSON form of a value. The widths of numbers are lost, and a double that is not finite becomes
null. -/
def toJson : Value → Json
  | .null => .null
  | .bool b => .bool b
  | .int32 n => .int n.toInt
  | .int64 n => .int n.toInt
  | .float x => if x.isFinite then .float x else .null
  | .string s => .string s
  | .array items => .array (itemsToJson items)
  | .object fields => .object (fieldsToJson fields)
  | .dateTime t => .object [("$date", .int t.toMillis)]
  | .regex pattern ignoreCase =>
    .object <| (if ignoreCase then [("$options", .string "i")] else []) ++
      [("$regex", .string pattern)]

/-- The JSON forms of the items of an array. -/
def itemsToJson : List Value → List Json
  | [] => []
  | v :: vs => v.toJson :: itemsToJson vs

/-- The JSON forms of fields, under their names. -/
def fieldsToJson : List (String × Value) → List (String × Json)
  | [] => []
  | (name, v) :: fs => (name, v.toJson) :: fieldsToJson fs

end

/-- A whole number in the narrowest width, or as a double when it fits neither. -/
def ofInt (n : Int) : Value :=
  if -2147483648 ≤ n ∧ n ≤ 2147483647 then .int32 (Int32.ofInt n)
  else if -9223372036854775808 ≤ n ∧ n ≤ 9223372036854775807 then .int64 (Int64.ofInt n)
  else .float (Double.ofInt n)

/-- Read an instant: milliseconds, or a text. -/
def readDate (json : Json) : Except DocumentError Instant :=
  match json with
  | .int n =>
    match Instant.ofMillis? n with
    | some t => .ok t
    | none => .error (.unreadable (.date json))
  | .string s =>
    match Rfc3339.parse s with
    | .ok t => .ok t
    | .error e => .error (.unreadable (.dateText s e))
  | _ => .error (.unreadable (.date json))

/-- Whether the options of a pattern, if there are any, ask to ignore case. -/
def ignoresCase (options : Option String) : Bool :=
  options.any fun o => o.toList.contains 'i'

mutual

/-- Read a value from its JSON form. An object with `$date` is an instant, one with a text under
`$regex` a pattern, whatever else they hold. -/
def ofJson : Json → Except DocumentError Value
  | .null => .ok .null
  | .bool b => .ok (.bool b)
  | .int n => .ok (ofInt n)
  | .float x => .ok (.float x)
  | .string s => .ok (.string s)
  | .array items =>
    match itemsOfJson items with
    | .ok vs => .ok (.array vs)
    | .error e => .error e
  | .object members =>
    match Fields.get? "$date" members with
    | some date => (readDate date).map .dateTime
    | none =>
      match (Fields.get? "$regex" members).bind Json.string? with
      | some pattern =>
        .ok (.regex pattern (ignoresCase ((Fields.get? "$options" members).bind Json.string?)))
      | none =>
        match fieldsOfJson [] members with
        | .ok fields => .ok (.object fields)
        | .error e => .error e

/-- Read items from their JSON forms. -/
def itemsOfJson : List Json → Except DocumentError (List Value)
  | [] => .ok []
  | j :: js =>
    match ofJson j with
    | .error e => .error e
    | .ok v =>
      match itemsOfJson js with
      | .error e => .error e
      | .ok vs => .ok (v :: vs)

/-- Read fields from their JSON forms, into those read before. -/
def fieldsOfJson (done : Fields Value) : List (String × Json) → Except DocumentError (Fields Value)
  | [] => .ok done
  | (name, j) :: ms =>
    match ofJson j with
    | .error e => .error e
    | .ok v => fieldsOfJson (Fields.insert name v done) ms

end

end MediaCatalogue.Value

namespace MediaCatalogue

/-- Read the fields of a document from its JSON form, which has to be that of an object. -/
def Fields.ofJson (json : Json) : Except DocumentError (Fields Value) :=
  match Value.ofJson json with
  | .ok (.object fields) => .ok fields
  | .ok _ => .error (.unreadable .notAnObject)
  | .error e => .error e

/-- The JSON form of the fields of a document. -/
def Fields.toJson (fields : Fields Value) : Json :=
  .object (Value.fieldsToJson fields)

end MediaCatalogue
