/-!
# Attributes

An attribute is a named, typed field of a kind of entity, by which content can be searched. The kinds of
content form a hierarchy; the kinds beneath a version stand on their own.
-/

set_option autoImplicit false

namespace MediaCatalogue

/-- The kinds of entity that an attribute can belong to. -/
inductive EntityKind where
  | content
  | item
  | episode
  | container
  | brand
  | series
  | contentGroup
  | version
  | broadcast
  | encoding
  | location
  | policy
  | person
deriving DecidableEq

namespace EntityKind

/-- The name of a kind, as messages and listings give it. -/
def name : EntityKind → String
  | .content => "Content"
  | .item => "Item"
  | .episode => "Episode"
  | .container => "Container"
  | .brand => "Brand"
  | .series => "Series"
  | .contentGroup => "ContentGroup"
  | .version => "Version"
  | .broadcast => "Broadcast"
  | .encoding => "Encoding"
  | .location => "Location"
  | .policy => "Policy"
  | .person => "Person"

/-- All kinds. -/
def all : List EntityKind :=
  [.content, .item, .episode, .container, .brand, .series, .contentGroup, .version, .broadcast,
    .encoding, .location, .policy, .person]

/-- The kind of a name. -/
def ofName? (n : String) : Option EntityKind :=
  all.find? fun k => k.name == n

/-- The kind above in the hierarchy of content. -/
def parent? : EntityKind → Option EntityKind
  | .episode => some .item
  | .brand => some .container
  | .series => some .container
  | .item => some .content
  | .container => some .content
  | .contentGroup => some .content
  | _ => none

/-- The kind itself and those above it; the hierarchy has three levels. -/
def lineage (k : EntityKind) : List EntityKind :=
  match k.parent? with
  | none => [k]
  | some p =>
    match p.parent? with
    | none => [k, p]
    | some q => [k, p, q]

/-- Whether a kind is another or beneath it. -/
def isA (k other : EntityKind) : Bool :=
  k.lineage.contains other

/-- Whether an entity of this kind can be asked for the attributes of another: a kind above or beneath it,
and a location for its policy. -/
def answersFor (k target : EntityKind) : Bool :=
  k.isA target || target.isA k || (k == .location && target == .policy)

end EntityKind

/-- The kinds of value that an attribute can have. -/
inductive ValueKind where
  | integer
  | string
  | boolean
  | keyword
  | dateTime
deriving DecidableEq

/-- The name of a kind of values. Keywords are shown as the enumeration that they come from. -/
def ValueKind.name : ValueKind → String
  | .integer => "Integer"
  | .string => "String"
  | .boolean => "Boolean"
  | .keyword => "Enum"
  | .dateTime => "DateTime"

/-- A named field of a kind of entity; a collection holds any number of values. -/
structure Attribute where
  name : String
  field : String
  target : EntityKind
  valueKind : ValueKind
  collection : Bool := false
deriving DecidableEq

namespace Attribute

/-- The attributes that can be asked for by name. -/
def all : List Attribute :=
  [{ name := "title", field := "title", target := .content, valueKind := .string },
   { name := "description", field := "description", target := .content, valueKind := .string },
   { name := "uri", field := "canonicalUri", target := .content, valueKind := .string },
   { name := "curie", field := "curie", target := .content, valueKind := .string },
   { name := "publisher", field := "publisher", target := .content, valueKind := .string },
   { name := "genre", field := "genre", target := .content, valueKind := .string, collection := true },
   { name := "tag", field := "tag", target := .content, valueKind := .string, collection := true },
   { name := "mediaType", field := "mediaType", target := .content, valueKind := .keyword },
   { name := "lastUpdated", field := "lastUpdated", target := .content, valueKind := .dateTime },
   { name := "item.isLongForm", field := "isLongForm", target := .item, valueKind := .boolean },
   { name := "episode.episodeNumber", field := "episodeNumber", target := .episode,
     valueKind := .integer },
   { name := "episode.seriesNumber", field := "seriesNumber", target := .episode,
     valueKind := .integer },
   { name := "brand.title", field := "title", target := .brand, valueKind := .string },
   { name := "version.duration", field := "duration", target := .version, valueKind := .integer },
   { name := "version.publishedDuration", field := "publishedDuration", target := .version,
     valueKind := .integer },
   { name := "broadcast.on", field := "broadcastOn", target := .broadcast, valueKind := .string },
   { name := "broadcast.transmissionTime", field := "transmissionTime", target := .broadcast,
     valueKind := .dateTime },
   { name := "broadcast.transmissionEndTime", field := "transmissionEndTime", target := .broadcast,
     valueKind := .dateTime },
   { name := "broadcast.duration", field := "broadcastDuration", target := .broadcast,
     valueKind := .integer },
   { name := "broadcast.repeat", field := "repeat", target := .broadcast, valueKind := .boolean },
   { name := "encoding.dataContainerFormat", field := "dataContainerFormat", target := .encoding,
     valueKind := .string },
   { name := "encoding.bitRate", field := "bitRate", target := .encoding, valueKind := .integer },
   { name := "encoding.videoCoding", field := "videoCoding", target := .encoding,
     valueKind := .string },
   { name := "encoding.audioCoding", field := "audioCoding", target := .encoding,
     valueKind := .string },
   { name := "location.available", field := "available", target := .location,
     valueKind := .boolean },
   { name := "location.transportType", field := "transportType", target := .location,
     valueKind := .keyword },
   { name := "location.uri", field := "uri", target := .location, valueKind := .string },
   { name := "policy.availableCountries", field := "availableCountries", target := .policy,
     valueKind := .string, collection := true },
   { name := "policy.availabilityStart", field := "availabilityStart", target := .policy,
     valueKind := .dateTime },
   { name := "policy.availabilityEnd", field := "availabilityEnd", target := .policy,
     valueKind := .dateTime },
   { name := "person.name", field := "name", target := .person, valueKind := .string }]

/-- The attribute of a name. -/
def ofName? (n : String) : Option Attribute :=
  all.find? fun a => a.name == n

end Attribute
end MediaCatalogue
