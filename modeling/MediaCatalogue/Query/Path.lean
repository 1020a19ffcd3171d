import MediaCatalogue.Query.Error

/-!
# Where entities are found in documents

A document of content holds its versions, each version its broadcasts and encodings, each encoding its
locations with their policies. An attribute is a field at the place of its kind of entity: of content
itself, or of the elements of a nested array.
-/

set_option autoImplicit false

namespace MediaCatalogue

/-- The places in a document of content where entities are found, with those above before those beneath. -/
inductive EntityPath where
  | root
  | versions
  | broadcasts
  | encodings
  | locations
deriving DecidableEq

namespace EntityPath

/-- The names of the nested arrays on the way. -/
def segments : EntityPath → List String
  | .root => []
  | .versions => ["versions"]
  | .broadcasts => ["versions", "broadcasts"]
  | .encodings => ["versions", "manifestedAs"]
  | .locations => ["versions", "manifestedAs", "availableAt"]

/-- The nested places, those above before those beneath. -/
def nested : List EntityPath :=
  [.versions, .broadcasts, .encodings, .locations]

/-- The nested places above, the nearest first. -/
def ancestors : EntityPath → List EntityPath
  | .root => []
  | .versions => []
  | .broadcasts => [.versions]
  | .encodings => [.versions]
  | .locations => [.encodings, .versions]

/-- The place of a kind of entity. Groups and persons have none. -/
def ofKind? : EntityKind → Option EntityPath
  | .content => some .root
  | .item => some .root
  | .episode => some .root
  | .container => some .root
  | .brand => some .root
  | .series => some .root
  | .version => some .versions
  | .broadcast => some .broadcasts
  | .encoding => some .encodings
  | .location => some .locations
  | .policy => some .locations
  | .contentGroup => none
  | .person => none

end EntityPath

namespace Attribute

/-- The place of the entity that an attribute belongs to. -/
def path (a : Attribute) : Except QueryError EntityPath :=
  match EntityPath.ofKind? a.target with
  | some p => .ok p
  | none => .error (.unsupportedEntity a)

/-- The field of an attribute in the record of its entity: within the policy of a location, and in the
plural for a collection. -/
def fieldName (a : Attribute) : String :=
  if a.target = .policy then "policy." ++ a.field
  else if a.collection && a.field.toList.getLast? != some 's' then a.field ++ "s"
  else a.field

end Attribute
end MediaCatalogue
