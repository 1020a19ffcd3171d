import MediaCatalogue.Calendar.Instant
import MediaCatalogue.Content.Vocabulary
import MediaCatalogue.Text.TextSet

/-!
# Versions

A version is one cut of an item. It is broadcast on channels, and manifested as encodings, which are
available at locations under policies.
-/

set_option autoImplicit false

namespace MediaCatalogue

/-- When and in which countries something is available. -/
structure Policy where
  availableCountries : TextSet := .empty
  availabilityStart : Option Instant := none
  availabilityEnd : Option Instant := none
deriving DecidableEq

/-- A place where an encoding can be had. -/
structure Location where
  uri : Option String := none
  available : Bool := true
  transportType : Option TransportType := none
  policy : Option Policy := none
deriving DecidableEq

/-- A technical form of a version. -/
structure Encoding where
  dataContainerFormat : Option String := none
  bitRate : Option Int64 := none
  videoCoding : Option String := none
  audioCoding : Option String := none
  availableAt : List Location := []
deriving DecidableEq

/-- A transmission of a version on a channel. -/
structure Broadcast where
  broadcastOn : String
  transmissionTime : Instant
  transmissionEndTime : Instant
  repeated : Option Bool := none
  sourceId : Option String := none
deriving DecidableEq

/-- How long a transmission takes, in seconds. -/
def Broadcast.duration (b : Broadcast) : Int64 :=
  Int64.ofInt (Instant.secondsBetween b.transmissionTime b.transmissionEndTime)

/-- One cut of an item, with its transmissions and encodings. -/
structure Version where
  canonicalUri : Option String := none
  duration : Option Int64 := none
  publishedDuration : Option Int64 := none
  broadcasts : List Broadcast := []
  manifestedAs : List Encoding := []
deriving DecidableEq

end MediaCatalogue
