import MediaCatalogue.Content.Basic
import MediaCatalogue.Json.Structure

/-!
# Content as JSON

Each piece of content is an object whose member `entity` says whether it is an item, a container or a
group, with what is said of all content inline. Every field is written. Versions and what is beneath them
are plain structures.
-/

set_option autoImplicit false

namespace MediaCatalogue

open Json

/-! ## Writing -/

/-- A policy as an object of its three fields. -/
def Policy.toJson (p : Policy) : Json :=
  .object [("availableCountries", ofTextSet p.availableCountries),
    ("availabilityStart", ofOption ofInstant p.availabilityStart),
    ("availabilityEnd", ofOption ofInstant p.availabilityEnd)]

/-- A location as an object, its policy inside. -/
def Location.toJson (l : Location) : Json :=
  .object [("uri", ofOption .string l.uri), ("available", .bool l.available),
    ("transportType", ofOption ofKeyed l.transportType), ("policy", ofOption Policy.toJson l.policy)]

/-- An encoding as an object, its locations inside. -/
def Encoding.toJson (e : Encoding) : Json :=
  .object [("dataContainerFormat", ofOption .string e.dataContainerFormat),
    ("bitRate", ofOption ofInt64 e.bitRate), ("videoCoding", ofOption .string e.videoCoding),
    ("audioCoding", ofOption .string e.audioCoding), ("availableAt", .array (e.availableAt.map Location.toJson))]

/-- A broadcast as an object; whether it is repeated stands under `repeat`. -/
def Broadcast.toJson (b : Broadcast) : Json :=
  .object [("broadcastOn", .string b.broadcastOn), ("transmissionTime", ofInstant b.transmissionTime),
    ("transmissionEndTime", ofInstant b.transmissionEndTime), ("repeat", ofOption .bool b.repeated),
    ("sourceId", ofOption .string b.sourceId)]

/-- A version as an object, its broadcasts and encodings inside. -/
def Version.toJson (v : Version) : Json :=
  .object [("canonicalUri", ofOption .string v.canonicalUri), ("duration", ofOption ofInt64 v.duration),
    ("publishedDuration", ofOption ofInt64 v.publishedDuration),
    ("broadcasts", .array (v.broadcasts.map Broadcast.toJson)),
    ("manifestedAs", .array (v.manifestedAs.map Encoding.toJson))]

/-- The members for what is said of all content alike. -/
def Described.toMembers (d : Described) : List (String × Json) :=
  [("canonicalUri", .string d.canonicalUri), ("curie", ofOption .string d.curie),
    ("aliases", ofTextSet d.aliases), ("title", ofOption .string d.title),
    ("description", ofOption .string d.description), ("publisher", ofOption ofKeyed d.publisher),
    ("genres", ofTextSet d.genres), ("tags", ofTextSet d.tags),
    ("mediaType", ofOption ofKeyed d.mediaType), ("lastUpdated", ofOption ofInstant d.lastUpdated)]

/-- The members of an item, its versions among them. -/
def Item.toMembers (i : Item) : List (String × Json) :=
  i.described.toMembers ++
    [("kind", ofKeyed i.kind), ("isLongForm", .bool i.isLongForm),
      ("container", ofOption .string i.container), ("episodeNumber", ofOption ofInt64 i.episodeNumber),
      ("seriesNumber", ofOption ofInt64 i.seriesNumber),
      ("versions", .array (i.versions.map Version.toJson))]

/-- The members of a container, with the JSON forms of its contents. -/
def Container.toMembers (c : Container) (contents : List Json) : List (String × Json) :=
  c.described.toMembers ++
    [("kind", ofKeyed c.kind), ("seriesNumber", ofOption ofInt64 c.seriesNumber),
      ("contents", .array contents)]

/-- The members of a group, with the JSON forms of its contents. -/
def Described.toGroupMembers (d : Described) (contents : List Json) : List (String × Json) :=
  d.toMembers ++ [("contents", .array contents)]

namespace Content

mutual

/-- Content as an object, with its form under `entity` in front. -/
def toJson : Content → Json
  | .item i => .object (("entity", .string "item") :: i.toMembers)
  | .container c ms => .object (("entity", .string "container") :: c.toMembers (allToJson ms))
  | .group d ms => .object (("entity", .string "group") :: d.toGroupMembers (allToJson ms))

/-- Content one after another. -/
def allToJson : List Content → List Json
  | [] => []
  | c :: cs => c.toJson :: allToJson cs

end

end Content

/-! ## Reading -/

/-- Read a policy; every field may be missing. -/
def Policy.ofJson? (j : Json) : Option Policy := do
  let fields ← structureFields? ["availableCountries", "availabilityStart", "availabilityEnd"] j
  return {
    availableCountries := ← withDefault? "availableCountries" .empty textSet? fields
    availabilityStart := ← optional? "availabilityStart" instant? fields
    availabilityEnd := ← optional? "availabilityEnd" instant? fields }

/-- Read a location; without another word it is available. -/
def Location.ofJson? (placement : Placement) (j : Json) : Option Location := do
  let fields ← structureFields? ["uri", "available", "transportType", "policy"] j
  return {
    uri := ← optional? "uri" string? fields
    available := ← withDefault? "available" true bool? fields
    transportType := ← optional? "transportType" (keyed? placement) fields
    policy := ← optional? "policy" Policy.ofJson? fields }

/-- Read an encoding and its locations; every field may be missing. -/
def Encoding.ofJson? (placement : Placement) (j : Json) : Option Encoding := do
  let fields ← structureFields?
    ["dataContainerFormat", "bitRate", "videoCoding", "audioCoding", "availableAt"] j
  return {
    dataContainerFormat := ← optional? "dataContainerFormat" string? fields
    bitRate := ← optional? "bitRate" int64? fields
    videoCoding := ← optional? "videoCoding" string? fields
    audioCoding := ← optional? "audioCoding" string? fields
    availableAt := ← withDefault? "availableAt" [] (list? (Location.ofJson? placement)) fields }

/-- Read a broadcast, which has to say on what it was and from when to when. -/
def Broadcast.ofJson? (j : Json) : Option Broadcast := do
  let fields ← structureFields?
    ["broadcastOn", "transmissionTime", "transmissionEndTime", "repeat", "sourceId"] j
  return {
    broadcastOn := ← required? "broadcastOn" string? fields
    transmissionTime := ← required? "transmissionTime" instant? fields
    transmissionEndTime := ← required? "transmissionEndTime" instant? fields
    repeated := ← optional? "repeat" bool? fields
    sourceId := ← optional? "sourceId" string? fields }

/-- Read a version with its broadcasts and encodings; every field may be missing. -/
def Version.ofJson? (placement : Placement) (j : Json) : Option Version := do
  let fields ← structureFields?
    ["canonicalUri", "duration", "publishedDuration", "broadcasts", "manifestedAs"] j
  return {
    canonicalUri := ← optional? "canonicalUri" string? fields
    duration := ← optional? "duration" int64? fields
    publishedDuration := ← optional? "publishedDuration" int64? fields
    broadcasts := ← withDefault? "broadcasts" [] (list? Broadcast.ofJson?) fields
    manifestedAs := ← withDefault? "manifestedAs" [] (list? (Encoding.ofJson? placement)) fields }

/-- The names under which all content is described. -/
def Described.fieldNames : List String :=
  ["canonicalUri", "curie", "aliases", "title", "description", "publisher", "genres", "tags",
    "mediaType", "lastUpdated"]

/-- Read what is said of content. These members are gathered before they are read, so they are parts. -/
def Described.ofMembers? (members : List (String × Json)) : Option Described := do
  return {
    canonicalUri := ← withDefault? "canonicalUri" "" string? members
    curie := ← optional? "curie" string? members
    aliases := ← withDefault? "aliases" .empty textSet? members
    title := ← optional? "title" string? members
    description := ← optional? "description" string? members
    publisher := ← optional? "publisher" (keyed? .part) members
    genres := ← withDefault? "genres" .empty textSet? members
    tags := ← withDefault? "tags" .empty textSet? members
    mediaType := ← optional? "mediaType" (keyed? .part) members
    lastUpdated := ← optional? "lastUpdated" instant? members }

/-- Read an item; what describes it stands among its own members. -/
def Item.ofJson? (placement : Placement) (j : Json) : Option Item := do
  let members ← uniqueMembers? (Described.fieldNames ++
    ["kind", "isLongForm", "container", "episodeNumber", "seriesNumber", "versions"]) j
  return {
    described := ← Described.ofMembers? members
    kind := ← withDefault? "kind" .item (keyed? placement) members
    isLongForm := ← withDefault? "isLongForm" false bool? members
    container := ← optional? "container" string? members
    episodeNumber := ← optional? "episodeNumber" int64? members
    seriesNumber := ← optional? "seriesNumber" int64? members
    versions := ← withDefault? "versions" [] (list? (Version.ofJson? placement)) members }

/-- Read a container, but not its contents. -/
def Container.ofJson? (placement : Placement) (j : Json) : Option Container := do
  let members ← uniqueMembers? (Described.fieldNames ++ ["kind", "seriesNumber", "contents"]) j
  return {
    described := ← Described.ofMembers? members
    kind := ← withDefault? "kind" .container (keyed? placement) members
    seriesNumber := ← optional? "seriesNumber" int64? members }

/-- Read a group, but not its contents. -/
def Described.ofGroupJson? (j : Json) : Option Described := do
  let members ← uniqueMembers? (Described.fieldNames ++ ["contents"]) j
  Described.ofMembers? members

namespace Content

/-- The three forms of content. -/
inductive Form where
  | item
  | container
  | group
deriving DecidableEq

/-- The forms of content with their names in JSON. -/
instance : Vocabulary Form where
  all := [.item, .container, .group]
  key
    | .item => "item"
    | .container => "container"
    | .group => "group"

/-- Read which form content has: by its name, in a part also by its number. -/
def form? (placement : Placement) : Json → Option Form
  | .string name => Vocabulary.ofExactKey? name
  | .int n =>
    if placement = .part ∧ 0 ≤ n then (Vocabulary.all : List Form)[n.toNat]? else none
  | _ => none

/-- Read content whose contents, if it has any, are read by `contents`. All but the form is read as a part. -/
def ofJsonWith? (placement : Placement) (contents : Unit → Option (List Content)) (j : Json) :
    Option Content := do
  let members ← uniqueMembers? ["entity"] j
  match ← required? "entity" (form? placement) members with
  | .item => return .item (← Item.ofJson? .part j)
  | .container => return .container (← Container.ofJson? .part j) (← contents ())
  | .group => return .group (← Described.ofGroupJson? j) (← contents ())

mutual

/-- Read content with all that it contains. -/
def ofJson? (placement : Placement) : Json → Option Content
  | .object members => ofJsonWith? placement (fun _ => contentsOfMembers? .part members) (.object members)
  | _ => none

/-- Read the contents among the members of a container or group; without that member it is empty. -/
def contentsOfMembers? (placement : Placement) : List (String × Json) → Option (List Content)
  | [] => some []
  | (name, j) :: ms =>
    if name = "contents" then contentsOfJson? placement j else contentsOfMembers? placement ms

/-- Read the contents of a container or group, which are an array. -/
def contentsOfJson? (placement : Placement) : Json → Option (List Content)
  | .array items => allOfJson? placement items
  | _ => none

/-- Read content one after another. -/
def allOfJson? (placement : Placement) : List Json → Option (List Content)
  | [] => some []
  | j :: js =>
    match ofJson? placement j with
    | none => none
    | some c => (allOfJson? placement js).map (c :: ·)

end

end Content
end MediaCatalogue
