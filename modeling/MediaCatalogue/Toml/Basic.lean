import MediaCatalogue.Json.Basic

/-!
# Configuration values

The values of a configuration file: JSON without null, with dates and times besides. Where they are used
they are seen as JSON, a date as an object that has no field of a name anyone asks for.
-/

set_option autoImplicit false

namespace MediaCatalogue

/-- A value in a configuration file. -/
inductive Toml where
  | string (s : String)
  | integer (n : Int)
  | float (x : Double)
  | boolean (b : Bool)
  | dateTime (text : String)
  | array (items : List Toml)
  | table (entries : List (String × Toml))
deriving Inhabited

namespace Toml

mutual

/-- How a value is seen where it is used. -/
def toJson : Toml → Json
  | .string s => .string s
  | .integer n => .int n
  | .float x => .float x
  | .boolean b => .bool b
  | .dateTime text => .object [("$date", .string text)]
  | .array items => .array (itemsToJson items)
  | .table entries => .object (entriesToJson entries)

/-- How the items of an array are seen. -/
def itemsToJson : List Toml → List Json
  | [] => []
  | v :: vs => v.toJson :: itemsToJson vs

/-- How the entries of a table are seen, under their names. -/
def entriesToJson : List (String × Toml) → List (String × Json)
  | [] => []
  | (name, v) :: es => (name, v.toJson) :: entriesToJson es

end

end Toml
end MediaCatalogue
