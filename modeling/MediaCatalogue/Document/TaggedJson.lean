import MediaCatalogue.Document.Basic

/-!
# Values as JSON with their types

Extended JSON forgets the width of whole numbers and the precision of instants. The tagged form keeps
both: each value is an object with its `type` and its `value`. A whole document is its identifier under
`_id` beside its tagged fields; a field of that name takes the place of the identifier, so that such a
document cannot be read back.
-/

set_option autoImplicit false

namespace MediaCatalogue.Value

/-- A value as an object of its type and its content. -/
def tagged (tag : String) (content : Json) : Json :=
  .object [("type", .string tag), ("value", content)]

mutual

/-- The tagged form of a value. Null alone has no content. -/
def toTagged : Value → Json
  | .null => .object [("type", .string "Null")]
  | .bool b => tagged "Bool" (.bool b)
  | .int32 n => tagged "Int32" (.int n.toInt)
  | .int64 n => tagged "Int64" (.int n.toInt)
  | .float x => tagged "Float64" (.float x)
  | .string s => tagged "String" (.string s)
  | .array items => tagged "Array" (.array (itemsToTagged items))
  | .object fields => tagged "Object" (.object (fieldsToTagged fields))
  | .dateTime t => tagged "DateTime" (.string t.toText)
  | .regex pattern ignoreCase =>
    tagged "Regex" (.object [("case_insensitive", .bool ignoreCase), ("pattern", .string pattern)])

/-- The tagged forms of the items of an array. -/
def itemsToTagged : List Value → List Json
  | [] => []
  | v :: vs => v.toTagged :: itemsToTagged vs

/-- The tagged forms of fields, under their names. -/
def fieldsToTagged : List (String × Value) → List (String × Json)
  | [] => []
  | (name, v) :: fs => (name, v.toTagged) :: fieldsToTagged fs

end

/-- Read the content of a value that has no parts of its own kind. -/
def scalarOfTagged? (tag : String) (content : Json) : Option Value :=
  match tag, content with
  | "Bool", .bool b => some (.bool b)
  | "Int32", .int n =>
    if -2147483648 ≤ n ∧ n ≤ 2147483647 then some (.int32 (Int32.ofInt n)) else none
  | "Int64", .int n =>
    if -9223372036854775808 ≤ n ∧ n ≤ 9223372036854775807 then some (.int64 (Int64.ofInt n)) else none
  | "Float64", .int n => some (.float (Double.ofInt n))
  | "Float64", .float x => some (.float x)
  | "String", .string s => some (.string s)
  | "DateTime", .string s => (Rfc3339.parseLenient s).toOption.map .dateTime
  | "Regex", .object members =>
    match Fields.get? "pattern" members, Fields.get? "case_insensitive" members with
    | some (.string pattern), some (.bool ignoreCase) => some (.regex pattern ignoreCase)
    | _, _ => none
  | _, _ => none

/-- Read the tag in an object: a text, or an object with that one member, which is null. -/
def tag? : Json → Option String
  | .string tag => some tag
  | .object [(tag, .null)] => some tag
  | _ => none

/-- The tag and the content of a tagged value, which may also be a pair with the tag as a text. -/
def tagAndContent? : Json → Option (String × Option Json)
  | .object members =>
    ((Fields.get? "type" members).bind tag?).map fun tag => (tag, Fields.get? "value" members)
  | .array [.string tag, content] => some (tag, some content)
  | _ => none

/-- Read a tagged value whose parts are nested at most `fuel` deep. -/
def ofTaggedWithin? : Nat → Json → Option Value
  | 0, _ => none
  | fuel + 1, json =>
    match tagAndContent? json with
    | none => none
    | some (tag, content) =>
      match tag, content with
      | "Null", none => some .null
      | "Null", some .null => some .null
      | "Array", some (.array items) => (items.mapM (ofTaggedWithin? fuel)).map .array
      | "Object", some (.object members) =>
        (members.mapM fun m => (ofTaggedWithin? fuel m.2).map fun v => (m.1, v)).map fun fields =>
          .object (Fields.ofList fields)
      | tag, some content => scalarOfTagged? tag content
      | _, none => none

/-- Read a value from its tagged form, nested as deep as that is. -/
def ofTagged? (json : Json) : Option Value :=
  ofTaggedWithin? (json.depth + 1) json

/-- Read fields from an object of tagged values. -/
def fieldsOfTagged? : Json → Option (Fields Value)
  | .object members =>
    (members.mapM fun m => (ofTagged? m.2).map fun v => (m.1, v)).map Fields.ofList
  | _ => none

end MediaCatalogue.Value

namespace MediaCatalogue.Document

/-- The JSON form of a whole document, its identifier given as text. -/
def storedForm (idText : String) (fields : Fields Value) : Json :=
  .object (Fields.insertAll (Value.fieldsToTagged fields) [("_id", .string idText)])

/-- Read a whole document: the text of its identifier, and its fields. -/
def ofStoredForm? : Json → Option (String × Fields Value)
  | .object members =>
    match Fields.get? "_id" members with
    | some (.string idText) =>
      (Value.fieldsOfTagged? (.object (Fields.erase "_id" members))).map fun fields => (idText, fields)
    | _ => none
  | _ => none

end MediaCatalogue.Document
