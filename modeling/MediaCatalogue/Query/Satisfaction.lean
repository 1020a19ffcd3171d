import MediaCatalogue.Content.Basic
import MediaCatalogue.Query.Constraint
import MediaCatalogue.Text.Casing

/-!
# When an entity satisfies constraints

An entity is asked only for the constraints that are addressed to its kind. A value that is missing
satisfies none; of the values of a collection, and of those of the constraint, one has to fit. What is to be
searched for fits everything.
-/

set_option autoImplicit false

namespace MediaCatalogue

/-- A single value of an attribute. -/
inductive Scalar where
  | integer (n : Int64)
  | string (s : String)
  | boolean (b : Bool)
  | keyword (key : String)
  | dateTime (t : Instant)
deriving DecidableEq

/-- What an entity has for an attribute: one value, or a collection. -/
inductive AttributeValue where
  | one (value : Scalar)
  | many (values : List Scalar)
deriving DecidableEq

/-- The single values in it. -/
def AttributeValue.scalars : AttributeValue → List Scalar
  | .one v => [v]
  | .many vs => vs

/-- An entity that constraints can be addressed to. -/
class Queryable (α : Type) where
  kind : α → EntityKind
  attribute? : Attribute → α → Option AttributeValue

namespace AttributeValue

/-- An optional text. -/
def string? (s : Option String) : Option AttributeValue := s.map fun s => .one (.string s)

/-- An optional whole number. -/
def integer? (n : Option Int64) : Option AttributeValue := n.map fun n => .one (.integer n)

/-- An optional instant. -/
def dateTime? (t : Option Instant) : Option AttributeValue := t.map fun t => .one (.dateTime t)

/-- A set of texts. -/
def strings (s : TextSet) : AttributeValue := .many (s.toList.map .string)

end AttributeValue

open AttributeValue in
/-- The attributes of what is said of content. -/
def Described.attribute? (a : Attribute) (d : Described) : Option AttributeValue :=
  match a.field with
  | "title" => string? d.title
  | "description" => string? d.description
  | "canonicalUri" => string? (some d.canonicalUri)
  | "curie" => string? d.curie
  | "publisher" => string? (d.publisher.map Vocabulary.key)
  | "genre" => some (strings d.genres)
  | "tag" => some (strings d.tags)
  | "mediaType" => d.mediaType.map fun m => .one (.keyword (Vocabulary.key m))
  | "lastUpdated" => dateTime? d.lastUpdated
  | _ => none

open AttributeValue in
/-- Items are asked for their kind and numbers, and as all content. Films and clips are asked as items.
-/
instance : Queryable Item where
  kind i :=
    match i.kind with
    | .episode => .episode
    | _ => .item
  attribute? a i :=
    match a.field with
    | "isLongForm" => some (.one (.boolean i.isLongForm))
    | "episodeNumber" => integer? i.episodeNumber
    | "seriesNumber" => integer? i.seriesNumber
    | _ => i.described.attribute? a

open AttributeValue in
/-- Containers are asked for their number, and as all content. -/
instance : Queryable Container where
  kind c :=
    match c.kind with
    | .brand => .brand
    | .series => .series
    | .container => .container
  attribute? a c :=
    match a.field with
    | "seriesNumber" => integer? c.seriesNumber
    | _ => c.described.attribute? a

/-- Content is asked as what it is; a group has no attributes of its own. -/
instance : Queryable Content where
  kind
    | .item i => Queryable.kind i
    | .container c _ => Queryable.kind c
    | .group _ _ => .contentGroup
  attribute? a
    | .item i => Queryable.attribute? a i
    | .container c _ => Queryable.attribute? a c
    | .group d _ => d.attribute? a

open AttributeValue in
/-- Versions are asked for how long they last. -/
instance : Queryable Version where
  kind _ := .version
  attribute? a v :=
    match a.field with
    | "duration" => integer? v.duration
    | "publishedDuration" => integer? v.publishedDuration
    | _ => none

open AttributeValue in
/-- Broadcasts are asked for when they were and on what; how long one took is worked out. -/
instance : Queryable Broadcast where
  kind _ := .broadcast
  attribute? a b :=
    match a.field with
    | "broadcastOn" => string? (some b.broadcastOn)
    | "transmissionTime" => dateTime? (some b.transmissionTime)
    | "transmissionEndTime" => dateTime? (some b.transmissionEndTime)
    | "broadcastDuration" => integer? (some b.duration)
    | "repeat" => b.repeated.map fun r => .one (.boolean r)
    | _ => none

open AttributeValue in
/-- Encodings are asked for their format, rate and codings. -/
instance : Queryable Encoding where
  kind _ := .encoding
  attribute? a e :=
    match a.field with
    | "dataContainerFormat" => string? e.dataContainerFormat
    | "bitRate" => integer? e.bitRate
    | "videoCoding" => string? e.videoCoding
    | "audioCoding" => string? e.audioCoding
    | _ => none

open AttributeValue in
/-- Policies are asked for the countries and the time in which they hold. -/
instance : Queryable Policy where
  kind _ := .policy
  attribute? a p :=
    match a.field with
    | "availableCountries" => some (strings p.availableCountries)
    | "availabilityStart" => dateTime? p.availabilityStart
    | "availabilityEnd" => dateTime? p.availabilityEnd
    | _ => none

open AttributeValue in
/-- Locations are asked for what is their own, and also for what their policy has. -/
instance : Queryable Location where
  kind _ := .location
  attribute? a l :=
    if a.target = .policy then l.policy.bind (Queryable.attribute? a)
    else
      match a.field with
      | "available" => some (.one (.boolean l.available))
      | "transportType" => l.transportType.map fun t => .one (.keyword (Vocabulary.key t))
      | "uri" => string? l.uri
      | _ => none

namespace Constraint

/-- Whether a text begins with another, both in lower case. -/
def beginsWith (actual beginning : String) : Bool :=
  (Text.lower beginning).toList.isPrefixOf (Text.lower actual).toList

/-- Whether a single value fits one of the values of a constraint. -/
def accepts (c : Constraint) (value : Scalar) : Bool :=
  match c.operands, c.operator, value with
  | _, .search, _ => true
  | .integers ns, .equals, .integer n => ns.contains n
  | .integers ns, .lessThan, .integer n => ns.any fun bound => n < bound
  | .integers ns, .greaterThan, .integer n => ns.any fun bound => bound < n
  | .strings ss, .equals, .string s => ss.contains s
  | .strings ss, .beginning, .string s => ss.any (beginsWith s)
  | .booleans bs, .equals, .boolean b => bs.contains b
  | .keywords ks, .equals, .keyword k => ks.any fun name => Text.equalIgnoringAsciiCase name k
  | .dateTimes ts, .equals, .dateTime t => ts.contains t
  | .dateTimes ts, .before, .dateTime t => ts.any t.lt
  | .dateTimes ts, .after, .dateTime t => ts.any fun bound => bound.lt t
  | _, _, _ => false

/-- Whether what an entity has for the attribute of a constraint fits it. -/
def holdsOf {α : Type} [Queryable α] (entity : α) (c : Constraint) : Bool :=
  match Queryable.attribute? c.subject entity with
  | none => false
  | some v => v.scalars.any c.accepts

/-- Whether a constraint is addressed to an entity of this kind. -/
def addresses {α : Type} [Queryable α] (entity : α) (c : Constraint) : Bool :=
  (Queryable.kind entity).answersFor c.subject.target

end Constraint

/-- Whether an entity satisfies all constraints that are addressed to it. -/
def satisfies {α : Type} [Queryable α] (constraints : List Constraint) (entity : α) : Bool :=
  constraints.all fun c => !c.addresses entity || c.holdsOf entity

end MediaCatalogue
