import MediaCatalogue.Content.Version
import MediaCatalogue.Record.Fields

/-!
# Records of versions

The records of versions and of what is beneath them. The length of a broadcast is stored for searching and
not read; the identifier that its source gave it is stored as `id`.
-/

set_option autoImplicit false

namespace MediaCatalogue

open Record

/-- The record of a policy. -/
def Policy.toRecord (p : Policy) : Fields Value :=
  ofEntries [("availableCountries", setValue p.availableCountries),
    ("availabilityStart", p.availabilityStart.map .dateTime),
    ("availabilityEnd", p.availabilityEnd.map .dateTime)]

/-- Read a policy; every field may be missing. -/
def Policy.ofRecord (fields : Fields Value) : Except RecordError Policy := do
  return {
    availableCountries := ← textSet "policy" "availableCountries" fields
    availabilityStart := ← dateTime "policy" "availabilityStart" fields
    availabilityEnd := ← dateTime "policy" "availabilityEnd" fields }

/-- The record of a location, with that of its policy. -/
def Location.toRecord (l : Location) : Fields Value :=
  ofEntries [("uri", l.uri.map .string), ("available", some (.bool l.available)),
    ("transportType", l.transportType.map keyValue),
    ("policy", l.policy.map fun p => .object p.toRecord)]

/-- Read a location and its policy; without another word it is available. -/
def Location.ofRecord (fields : Fields Value) : Except RecordError Location := do
  return {
    uri := ← string "location" "uri" fields
    available := (← bool "location" "available" fields).getD true
    transportType := ← keyed "location" "transportType" fields
    policy := ← nested Policy.ofRecord "location" "policy" fields }

/-- The record of an encoding, with those of its locations. -/
def Encoding.toRecord (e : Encoding) : Fields Value :=
  ofEntries [("dataContainerFormat", e.dataContainerFormat.map .string),
    ("bitRate", e.bitRate.map .int64), ("videoCoding", e.videoCoding.map .string),
    ("audioCoding", e.audioCoding.map .string),
    ("availableAt", listValue (e.availableAt.map Location.toRecord))]

/-- Read an encoding and its locations. -/
def Encoding.ofRecord (fields : Fields Value) : Except RecordError Encoding := do
  return {
    dataContainerFormat := ← string "encoding" "dataContainerFormat" fields
    bitRate := ← int "encoding" "bitRate" fields
    videoCoding := ← string "encoding" "videoCoding" fields
    audioCoding := ← string "encoding" "audioCoding" fields
    availableAt := ← list Location.ofRecord "encoding" "availableAt" fields }

/-- The record of a broadcast. How long it took is stored with it, so that it can be searched for. -/
def Broadcast.toRecord (b : Broadcast) : Fields Value :=
  ofEntries [("broadcastOn", some (.string b.broadcastOn)),
    ("transmissionTime", some (.dateTime b.transmissionTime)),
    ("transmissionEndTime", some (.dateTime b.transmissionEndTime)),
    ("broadcastDuration", some (.int64 b.duration)), ("repeat", b.repeated.map .bool),
    ("id", b.sourceId.map .string)]

/-- Read a broadcast. How long it took is not read but worked out again. -/
def Broadcast.ofRecord (fields : Fields Value) : Except RecordError Broadcast := do
  return {
    broadcastOn := ← required string "broadcast" "broadcastOn" fields
    transmissionTime := ← required dateTime "broadcast" "transmissionTime" fields
    transmissionEndTime := ← required dateTime "broadcast" "transmissionEndTime" fields
    repeated := ← bool "broadcast" "repeat" fields
    sourceId := ← string "broadcast" "id" fields }

/-- The record of a version, with those of its broadcasts and encodings. -/
def Version.toRecord (v : Version) : Fields Value :=
  ofEntries [("canonicalUri", v.canonicalUri.map .string), ("duration", v.duration.map .int64),
    ("publishedDuration", v.publishedDuration.map .int64),
    ("broadcasts", listValue (v.broadcasts.map Broadcast.toRecord)),
    ("manifestedAs", listValue (v.manifestedAs.map Encoding.toRecord))]

/-- Read a version with its broadcasts and encodings. -/
def Version.ofRecord (fields : Fields Value) : Except RecordError Version := do
  return {
    canonicalUri := ← string "version" "canonicalUri" fields
    duration := ← int "version" "duration" fields
    publishedDuration := ← int "version" "publishedDuration" fields
    broadcasts := ← list Broadcast.ofRecord "version" "broadcasts" fields
    manifestedAs := ← list Encoding.ofRecord "version" "manifestedAs" fields }

end MediaCatalogue
