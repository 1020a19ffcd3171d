import MediaCatalogue.Calendar.Date

/-!
# Instants

An instant is a number of seconds since 1970-01-01T00:00:00 in universal time, and nanoseconds. A leap
second has no number of its own: it is the last second of a minute with a thousand million nanoseconds
or more. Instants lie within the years -262143 to 262142.

Nanoseconds past a second stand at the end of a minute of universal time only. That is where the texts and
the numbers from which instants are read can put them, since the offsets in texts are whole minutes.
Instants that come about in other ways, from local times with an offset in seconds or by setting the
nanoseconds alone, could have them at any second; these are not represented.
-/

set_option autoImplicit false

namespace MediaCatalogue

/-- The nanoseconds of one second; from here on they belong to a leap second. -/
def nanosPerSecond : Nat := 1000000000

/-- Whether nanoseconds may stand beside a number of seconds; more than a second of them only beside the
last second of a minute. -/
def Instant.Valid (seconds : Int) (nanos : Nat) : Prop :=
  -8334601228800 ≤ seconds ∧ seconds ≤ 8210266876799 ∧ nanos < 2 * nanosPerSecond ∧
    (nanosPerSecond ≤ nanos → seconds % 60 = 59)

instance (seconds : Int) (nanos : Nat) : Decidable (Instant.Valid seconds nanos) := by
  unfold Instant.Valid
  infer_instance

/-- A point in time, to the nanosecond. -/
structure Instant where
  seconds : Int
  nanos : Nat
  valid : Instant.Valid seconds nanos
deriving DecidableEq

namespace Instant

/-- The instant with these seconds and nanoseconds, where there is one. -/
def of? (seconds : Int) (nanos : Nat) : Option Instant :=
  if h : Valid seconds nanos then some ⟨seconds, nanos, h⟩ else none

instance : Inhabited Instant := ⟨⟨0, 0, by decide⟩⟩

/-- Instants are ordered by their seconds, then by their nanoseconds. -/
def lt (a b : Instant) : Bool :=
  a.seconds < b.seconds || (a.seconds == b.seconds && a.nanos < b.nanos)

instance : Ord Instant where
  compare a b := (compare a.seconds b.seconds).then (compare a.nanos b.nanos)

/-- The instant so many milliseconds after the epoch. -/
def ofMillis? (millis : Int) : Option Instant :=
  of? (millis / 1000) ((millis % 1000).toNat * 1000000)

/-- The milliseconds since the epoch, rounded down. -/
def toMillis (t : Instant) : Int :=
  t.seconds * 1000 + t.nanos / 1000000

/-- Whether the instant is written in milliseconds without loss: it is a whole number of milliseconds
and no leap second. -/
def isWholeMillis (t : Instant) : Bool :=
  t.nanos % 1000000 == 0 && t.nanos < nanosPerSecond

/-- The whole seconds from `start` to `stop`, rounded toward zero. A leap second counts when the other
instant's time of day is past it, on whatever date. -/
def secondsBetween (start stop : Instant) : Int :=
  let startOfDay := start.seconds % 86400
  let stopOfDay := stop.seconds % 86400
  let leap : Int :=
    if startOfDay < stopOfDay then (if nanosPerSecond ≤ start.nanos then 1 else 0)
    else if stopOfDay < startOfDay then (if nanosPerSecond ≤ stop.nanos then -1 else 0)
    else 0
  let nanos := (stop.seconds - start.seconds + leap) * nanosPerSecond +
    ((stop.nanos : Int) - start.nanos)
  Int.tdiv nanos nanosPerSecond

end Instant
end MediaCatalogue
