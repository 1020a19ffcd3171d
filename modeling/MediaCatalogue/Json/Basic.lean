import MediaCatalogue.Number.Double
import MediaCatalogue.Fields

/-!
# JSON values

A number is an integer or a double, as it was written: a fraction or an exponent makes a double. The
members of an object are kept in the order in which they stand, repetitions included; `Json.canonical`
sorts them by name and keeps the last of each name, which is what a reader that looks members up sees.
-/

set_option autoImplicit false

namespace MediaCatalogue

/-- A JSON value. -/
inductive Json where
  | null
  | bool (b : Bool)
  | int (n : Int)
  | float (x : Double)
  | string (s : String)
  | array (items : List Json)
  | object (members : List (String × Json))
deriving Inhabited

namespace Json

mutual

/-- Sort the members of all objects by name and keep the last of each name. -/
def canonical : Json → Json
  | .array items => .array (canonicalItems items)
  | .object members => .object (canonicalMembers [] members)
  | j => j

/-- The canonical forms of items. -/
def canonicalItems : List Json → List Json
  | [] => []
  | j :: js => j.canonical :: canonicalItems js

/-- Put members, in canonical form, into a sorted list. -/
def canonicalMembers (sorted : Fields Json) : List (String × Json) → Fields Json
  | [] => sorted
  | (name, j) :: ms => canonicalMembers (Fields.insert name j.canonical sorted) ms

end

mutual

/-- How deep arrays and objects are nested in the value. -/
def depth : Json → Nat
  | .array items => depthOfItems items + 1
  | .object members => depthOfMembers members + 1
  | _ => 0

/-- How deep the deepest of some items is nested. -/
def depthOfItems : List Json → Nat
  | [] => 0
  | j :: js => max j.depth (depthOfItems js)

/-- How deep the deepest of some members is nested. -/
def depthOfMembers : List (String × Json) → Nat
  | [] => 0
  | (_, j) :: ms => max j.depth (depthOfMembers ms)

end

/-- The member of an object under a name. -/
def member? (name : String) : Json → Option Json
  | .object members => Fields.get? name members
  | _ => none

/-- The text, if the value is one. -/
def string? : Json → Option String
  | .string s => some s
  | _ => none

/-- An object from its members, sorted by name. -/
def ofMembers (members : List (String × Json)) : Json :=
  .object (Fields.ofList members)

end Json
end MediaCatalogue
