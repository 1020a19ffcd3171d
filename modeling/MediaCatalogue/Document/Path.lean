import MediaCatalogue.Document.Value
import MediaCatalogue.Document.Error
import MediaCatalogue.Text.Numeral
import MediaCatalogue.Text.Split

/-!
# Paths into documents

A path is the names on the way to a value, with dots between them. Going along a path leads through
objects by name and through arrays by index. Setting a value at a path makes the objects that are missing
on the way, and leads through objects only. It is done in place, so that what is left behind where it is
refused can be seen.

Resolving a path is more generous: at an array it follows the index and then also each object among the
items, so that one path can lead to many values.
-/

set_option autoImplicit false

namespace MediaCatalogue

/-- The names on a path. -/
def pathSegments (path : String) : List String :=
  Text.split '.' path

/-- The index that a segment is, if it is one. -/
def arrayIndex? (segment : String) : Option Nat :=
  Text.readWord? segment.toList

namespace Value

/-- One step on the way: by name into an object, by index into an array. -/
def child? (segment : String) : Value → Option Value
  | .object fields => Fields.get? segment fields
  | .array items => (arrayIndex? segment).bind (items[·]?)
  | _ => none

/-- Where the segments lead from a value. -/
def follow? (v : Value) (segments : List String) : Option Value :=
  segments.foldlM (fun v segment => v.child? segment) v

/-- All values that one step leads to: at an array the item of the index, then a field of each object. -/
def children (segment : String) : Value → List Value
  | .object fields => (Fields.get? segment fields).toList
  | .array items =>
    ((arrayIndex? segment).bind (items[·]?)).toList ++
      items.filterMap fun item => (item.object?).bind (Fields.get? segment)
  | _ => []

/-- All values that the segments lead to. -/
def resolve (values : List Value) (segments : List String) : List Value :=
  segments.foldl (fun values segment => values.flatMap (·.children segment)) values

end Value

namespace Fields

/-- The value to which a path leads, each step at a field of an object or an item of an array. -/
def getPath? (path : String) (fields : Fields Value) : Option Value :=
  Value.follow? (.object fields) (pathSegments path)

/-- All values that a path leads to. -/
def resolve (path : String) (fields : Fields Value) : List Value :=
  Value.resolve [.object fields] (pathSegments path)

/-- Go down to the end of the segments and put a value in there. An object that is missing on the way is
made in passing. The fields come back as they are when it is over, also when a value that is no object was
in the way, with whether the value has been put in. -/
def assign (value : Value) : List String → Fields Value → Fields Value × Bool
  | [], fields => (fields, false)
  | [name], fields => (insert name value fields, true)
  | name :: rest, fields =>
    match (get? name fields).getD (.object []) with
    | .object inner =>
      let (inner, done) := assign value rest inner
      (insert name (.object inner) fields, done)
    | _ => (fields, false)

/-- Set a value at a path, in place: the fields as they are afterwards, and whether it was refused. -/
def assignPath (path : String) (value : Value) (fields : Fields Value) :
    Fields Value × Except DocumentError Unit :=
  let segments := pathSegments path
  if segments.any (·.isEmpty) then (fields, .error (.invalidPath path))
  else
    match assign value segments fields with
    | (fields, true) => (fields, .ok ())
    | (fields, false) => (fields, .error (.invalidPath path))

/-- The fields with a value set at a path, if it is not refused. -/
def setPath (path : String) (value : Value) (fields : Fields Value) :
    Except DocumentError (Fields Value) :=
  match assignPath path value fields with
  | (fields, .ok ()) => .ok fields
  | (_, .error e) => .error e

end Fields
end MediaCatalogue
