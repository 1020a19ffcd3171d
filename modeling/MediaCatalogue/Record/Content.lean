import MediaCatalogue.Content.Basic
import MediaCatalogue.Document.Basic
import MediaCatalogue.Record.Version

/-!
# Records of content

The field `type` tells the kinds of content apart: the kind of an item, the kind of a container, or a
group. A document of content also holds under `lookup` the uris by which it can be found, those of its
members included, and its identifier is derived from the canonical uri.
-/

set_option autoImplicit false

namespace MediaCatalogue

open Record

/-- The type under which an item of a kind is stored. -/
def ItemKind.typeName : ItemKind → String
  | .item => "Item"
  | .episode => "Episode"
  | .clip => "Clip"
  | .film => "Film"

/-- The type under which a container of a kind is stored. -/
def ContainerKind.typeName : ContainerKind → String
  | .brand => "Brand"
  | .series => "Series"
  | .container => "Container"

/-- The kind of item that a type names. -/
def ItemKind.ofTypeName? (name : String) : Option ItemKind :=
  [.item, .episode, .clip, .film].find? fun k => k.typeName == name

/-- The kind of container that a type names. -/
def ContainerKind.ofTypeName? (name : String) : Option ContainerKind :=
  [.brand, .series, .container].find? fun k => k.typeName == name

/-- The type under which a group is stored. -/
def groupTypeName : String := "ContentGroup"

/-- The entries for what is said of all content alike. -/
def Described.toEntries (d : Described) : List (String × Option Value) :=
  [("canonicalUri", some (.string d.canonicalUri)), ("curie", d.curie.map .string),
    ("aliases", setValue d.aliases), ("title", d.title.map .string),
    ("description", d.description.map .string), ("publisher", d.publisher.map keyValue),
    ("genres", setValue d.genres), ("tags", setValue d.tags), ("mediaType", d.mediaType.map keyValue),
    ("lastUpdated", d.lastUpdated.map .dateTime)]

/-- Read what is said of content. -/
def Described.ofRecord (entity : String) (fields : Fields Value) : Except RecordError Described := do
  return {
    canonicalUri := ← required string entity "canonicalUri" fields
    curie := ← string entity "curie" fields
    aliases := ← textSet entity "aliases" fields
    title := ← string entity "title" fields
    description := ← string entity "description" fields
    publisher := ← keyed entity "publisher" fields
    genres := ← textSet entity "genres" fields
    tags := ← textSet entity "tags" fields
    mediaType := ← keyed entity "mediaType" fields
    lastUpdated := ← dateTime entity "lastUpdated" fields }

/-- The record of an item, with the records of its versions. -/
def Item.toRecord (i : Item) : Fields Value :=
  ofEntries <| i.described.toEntries ++
    [("type", some (.string i.kind.typeName)), ("isLongForm", some (.bool i.isLongForm)),
      ("container", i.container.map .string), ("episodeNumber", i.episodeNumber.map .int64),
      ("seriesNumber", i.seriesNumber.map .int64),
      ("versions", listValue (i.versions.map Version.toRecord))]

/-- Read an item; without a type it is a plain one. -/
def Item.ofRecord (fields : Fields Value) : Except RecordError Item := do
  let kind ← match ← string "item" "type" fields with
    | none => pure .item
    | some name =>
      match ItemKind.ofTypeName? name with
      | some kind => pure kind
      | none => throw (.unknownContentType name)
  return {
    described := ← Described.ofRecord "item" fields
    kind := kind
    isLongForm := (← bool "item" "isLongForm" fields).getD false
    container := ← string "item" "container" fields
    episodeNumber := ← int "item" "episodeNumber" fields
    seriesNumber := ← int "item" "seriesNumber" fields
    versions := ← list Version.ofRecord "item" "versions" fields }

/-- The record of a container, with the records of its contents. -/
def Container.toRecord (c : Container) (contents : List (Fields Value)) : Fields Value :=
  ofEntries <| c.described.toEntries ++
    [("type", some (.string c.kind.typeName)), ("seriesNumber", c.seriesNumber.map .int64),
      ("contents", listValue contents)]

/-- Read a container without its contents; without a type it is a plain one. -/
def Container.ofRecord (fields : Fields Value) : Except RecordError Container := do
  let kind ← match ← string "container" "type" fields with
    | none => pure .container
    | some name =>
      match ContainerKind.ofTypeName? name with
      | some kind => pure kind
      | none => throw (.unknownContentType name)
  return {
    described := ← Described.ofRecord "container" fields
    kind := kind
    seriesNumber := ← int "container" "seriesNumber" fields }

/-- The record of a group, with the records of its contents. -/
def Described.toGroupRecord (d : Described) (contents : List (Fields Value)) : Fields Value :=
  ofEntries <| d.toEntries ++
    [("type", some (.string groupTypeName)), ("contents", listValue contents)]

namespace Content

mutual

/-- The record of content, with the records of all that it contains. -/
def toRecord : Content → Fields Value
  | .item i => i.toRecord
  | .container c ms => c.toRecord (allToRecords ms)
  | .group d ms => d.toGroupRecord (allToRecords ms)

/-- The records of content one after another. -/
def allToRecords : List Content → List (Fields Value)
  | [] => []
  | c :: cs => c.toRecord :: allToRecords cs

end

/-- Read a container whose contents are read by `contents`. -/
def containerOfRecord (contents : String → Except RecordError (List Content)) (fields : Fields Value) :
    Except RecordError Content := do
  let c ← Container.ofRecord fields
  return .container c (← contents "container")

/-- Read a group whose contents are read by `contents`. -/
def groupOfRecord (contents : String → Except RecordError (List Content)) (fields : Fields Value) :
    Except RecordError Content := do
  let d ← Described.ofRecord "content group" fields
  return .group d (← contents "content group")

/-- Read content of the kind that its type names; `contents` reads what it holds. -/
def ofRecordWith (contents : String → Except RecordError (List Content)) (fields : Fields Value) :
    Except RecordError Content := do
  let name ← required string "content" "type" fields
  if (ItemKind.ofTypeName? name).isSome then return .item (← Item.ofRecord fields)
  else if (ContainerKind.ofTypeName? name).isSome then containerOfRecord contents fields
  else if name = groupTypeName then groupOfRecord contents fields
  else throw (.unknownContentType name)

mutual

/-- Read the contents among the fields of a container or group. -/
def contentsOfFields (entity : String) : List (String × Value) → Except RecordError (List Content)
  | [] => .ok []
  | (name, v) :: rest =>
    if name = "contents" then contentsOfValue entity v else contentsOfFields entity rest

/-- Read the contents of a container or group from the value of their field, which may be null. -/
def contentsOfValue (entity : String) : Value → Except RecordError (List Content)
  | .null => .ok []
  | .array items => contentsOfItems entity items
  | _ => .error (.wrongType "contents" entity .array)

/-- Read content one after another. -/
def contentsOfItems (entity : String) : List Value → Except RecordError (List Content)
  | [] => .ok []
  | v :: vs =>
    match contentOfItem entity v with
    | .error e => .error e
    | .ok c =>
      match contentsOfItems entity vs with
      | .error e => .error e
      | .ok cs => .ok (c :: cs)

/-- Read one piece of content. -/
def contentOfItem (entity : String) : Value → Except RecordError Content
  | .object fields => ofRecordWith (fun inner => contentsOfFields inner fields) fields
  | _ => .error (.wrongType "contents" entity .arrayOfObjects)

end

/-- Read content of any kind. -/
def ofRecord (fields : Fields Value) : Except RecordError Content :=
  ofRecordWith (fun entity => contentsOfFields entity fields) fields

/-- The document under which content is stored. -/
def toDocument (c : Content) : Document :=
  { id := .ofKey c.uri
    fields := Fields.insert "lookup" (.array (c.lookupUris.toList.map .string)) c.toRecord }

/-- Read a stored document. -/
def ofDocument (d : Document) : Except RecordError Content :=
  ofRecord d.fields

end Content
end MediaCatalogue
