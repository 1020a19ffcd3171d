import MediaCatalogue.Calendar.Instant
import MediaCatalogue.Text.Blank
import MediaCatalogue.Text.Numeral

/-!
# Dates and times as text

Instants are written in universal time, as `2010-03-01T20:00:00Z`, with the fewest of three, six or nine
digits of a fraction that lose nothing, and with a sign before years of other than four digits.

They are read in two ways. The strict reader takes the fields at their places and says what is wrong
with a text that it refuses. The lenient reader, for stored text, also takes signed years, short fields,
white space between the parts and an offset without a colon.
-/

set_option autoImplicit false

namespace MediaCatalogue

/-- Why a text is refused as a date. -/
inductive DateError where
  | tooShort
  | invalid
  | outOfRange
  | trailing
deriving DecidableEq

/-- What is said of a text that is refused. -/
def DateError.message : DateError → String
  | .tooShort => "premature end of input"
  | .invalid => "input contains invalid characters"
  | .outOfRange => "input is out of range"
  | .trailing => "trailing input"

namespace Rfc3339

/-! ## Writing -/

/-- The decimal digits of a number, with zeros in front up to a width. -/
def padded (width n : Nat) : List Char :=
  let ds := Nat.toDigits 10 n
  List.replicate (width - ds.length) '0' ++ ds

/-- The digits of a year, with a sign unless it has four digits at most. -/
def yearText (year : Int) : List Char :=
  if 0 ≤ year ∧ year ≤ 9999 then padded 4 year.toNat
  else (if year < 0 then '-' else '+') :: padded 4 year.natAbs

/-- The fraction of a second. -/
def fractionText (nanos : Nat) : List Char :=
  if nanos = 0 then []
  else if nanos % 1000000 = 0 then '.' :: padded 3 (nanos / 1000000)
  else if nanos % 1000 = 0 then '.' :: padded 6 (nanos / 1000)
  else '.' :: padded 9 nanos

/-- The characters of an instant in universal time. -/
def render (t : Instant) : List Char :=
  let date := Date.ofDays (t.seconds / 86400)
  let second := (t.seconds % 86400).toNat
  let isLeap := nanosPerSecond ≤ t.nanos
  yearText date.year ++ '-' :: padded 2 date.month ++ '-' :: padded 2 date.day ++
    'T' :: padded 2 (second / 3600) ++ ':' :: padded 2 (second / 60 % 60) ++
    ':' :: padded 2 (second % 60 + if isLeap then 1 else 0) ++
    fractionText (t.nanos % nanosPerSecond) ++ ['Z']

/-! ## Fields -/

/-- The length of a text in bytes. A text that is too short is told by its bytes. -/
def byteCount (cs : List Char) : Nat :=
  cs.foldl (fun n c => n + c.utf8Size) 0

/-- The value of a decimal digit. -/
def digit? (c : Char) : Option Nat :=
  if c.isDigit then some (c.toNat - 48) else none

/-- Read at least one digit and at most `most` of them. -/
def readNumber (most : Nat) (cs : List Char) : Except DateError (Nat × List Char) :=
  let ds := (cs.take most).takeWhile Char.isDigit
  if ds.isEmpty then .error (if cs.isEmpty then .tooShort else .invalid)
  else .ok (Text.digitsValue ds, cs.drop ds.length)

/-- Read exactly two digits. A character of several bytes in their place makes the text wrong, not too
short. -/
def readTwoDigits (cs : List Char) : Except DateError (Nat × List Char) :=
  match cs with
  | a :: b :: rest =>
    match digit? a, digit? b with
    | some a, some b => .ok (10 * a + b, rest)
    | _, _ => .error .invalid
  | _ => .error (if byteCount cs < 2 then .tooShort else .invalid)

/-- Read the digits of a fraction as nanoseconds; digits past the ninth are dropped. -/
def readNanos (cs : List Char) : Except DateError (Nat × List Char) :=
  let ds := cs.takeWhile Char.isDigit
  if ds.isEmpty then .error (if cs.isEmpty then .tooShort else .invalid)
  else
    let kept := ds.take 9
    .ok (Text.digitsValue kept * Nat.pow 10 (9 - kept.length), cs.drop ds.length)

/-- Read an offset from universal time, in seconds: `Z`, or a sign, hours, a separator and minutes. -/
def readOffset (separator : List Char → Except DateError (List Char)) (cs : List Char) :
    Except DateError (Int × List Char) := do
  match cs with
  | [] => throw .tooShort
  | c :: rest =>
    if c = 'Z' || c = 'z' then return (0, rest)
    if !(c = '+' || c = '-' || c = '−') then throw .invalid
    let (hours, rest) ← readTwoDigits rest
    let rest ← separator rest
    let (minutes, rest) ← readTwoDigits rest
    if 60 ≤ minutes then throw .outOfRange
    let seconds : Int := hours * 3600 + minutes * 60
    return (if c = '+' then seconds else -seconds, rest)

/-- The instant of a date and time of day, less an offset; second 60 is a leap second. The date must lie in the
range of instants before and after the offset is taken off. -/
def assemble (date : Date) (hour minute second nanos : Nat) (offset : Int) :
    Except DateError Instant :=
  let (second, nanos) := if second = 60 then (59, nanosPerSecond + nanos) else (second, nanos)
  let seconds := date.toDays * 86400 + (hour * 3600 + minute * 60 + second : Nat) - offset
  if date.isValid && date.isNear && hour < 24 && minute < 60 && second < 60 && -86400 < offset && offset < 86400 then
    match Instant.of? seconds nanos with
    | some t => .ok t
    | none => .error .outOfRange
  else .error .outOfRange

/-! ## The strict reader -/

/-- Take a character off the front, which has to be this one. -/
def readChar (c : Char) (cs : List Char) : Except DateError (List Char) :=
  match cs with
  | [] => .error .tooShort
  | d :: rest => if d = c then .ok rest else .error .invalid

/-- Read a text that has the form of RFC 3339 throughout. -/
def parse (text : String) : Except DateError Instant := do
  let cs := text.toList
  if byteCount cs < 19 then throw .tooShort
  let (century, cs) ← readTwoDigits cs
  let (year, cs) ← readTwoDigits cs
  let cs ← readChar '-' cs
  let (month, cs) ← readTwoDigits cs
  let cs ← readChar '-' cs
  let (day, cs) ← readTwoDigits cs
  let date : Date := ⟨century * 100 + year, month, day⟩
  if !date.isValid then throw .outOfRange
  let cs ← match cs with
    | c :: rest => if c = 'T' || c = 't' || c = ' ' then pure rest else throw .invalid
    | [] => throw .invalid
  let (hour, cs) ← readTwoDigits cs
  let cs ← readChar ':' cs
  let (minute, cs) ← readTwoDigits cs
  let cs ← readChar ':' cs
  let (second, cs) ← readTwoDigits cs
  let (nanos, cs) ← match cs with
    | '.' :: rest => readNanos rest
    | _ => pure (0, cs)
  if 24 ≤ hour || 60 ≤ minute || 61 ≤ second then throw .outOfRange
  let (offset, cs) ← readOffset (readChar ':') cs
  if !cs.isEmpty then throw .trailing
  assemble date hour minute second nanos offset

/-! ## The lenient reader -/

/-- Drop white space. -/
def skipBlank (cs : List Char) : List Char :=
  cs.dropWhile Text.isBlank

/-- Read a year: with a sign it may have any number of digits. -/
def readYear (cs : List Char) : Except DateError (Int × List Char) := do
  match cs with
  | '-' :: rest =>
    let (n, rest) ← readNumber rest.length rest
    return (-(n : Int), rest)
  | '+' :: rest =>
    let (n, rest) ← readNumber rest.length rest
    return ((n : Int), rest)
  | cs =>
    let (n, rest) ← readNumber 4 cs
    return ((n : Int), rest)

/-- Read a field of one or two digits after white space. -/
def readField (cs : List Char) : Except DateError (Nat × List Char) :=
  readNumber 2 (skipBlank cs)

/-- Drop colons and white space. -/
def skipColons (cs : List Char) : Except DateError (List Char) :=
  .ok (cs.dropWhile fun c => c = ':' || Text.isBlank c)

/-- Read an offset, or the name of universal time. -/
def readZone (cs : List Char) : Except DateError (Int × List Char) :=
  if (cs.take 3).map Char.toUpper = ['U', 'T', 'C'] then .ok (0, cs.drop 3)
  else readOffset skipColons cs

/-- Read a text that has the parts of a date and time in order. -/
def parseLenient (text : String) : Except DateError Instant := do
  let (year, cs) ← readYear (skipBlank text.toList)
  let cs ← readChar '-' (skipBlank cs)
  let (month, cs) ← readField cs
  let cs ← readChar '-' (skipBlank cs)
  let (day, cs) ← readField cs
  let cs ← match cs with
    | c :: rest => if c = 'T' || c = 't' || c = ' ' then pure rest else throw .invalid
    | [] => throw .tooShort
  let (hour, cs) ← readField cs
  let cs ← readChar ':' (skipBlank cs)
  let (minute, cs) ← readField cs
  let cs ← readChar ':' (skipBlank cs)
  let (second, cs) ← readField cs
  let (nanos, cs) ← match cs with
    | '.' :: rest => readNanos rest
    | _ => pure (0, cs)
  if 24 ≤ hour || 60 ≤ minute || 61 ≤ second then throw .outOfRange
  let (offset, cs) ← readZone (skipBlank cs)
  if !(skipBlank cs).isEmpty then throw .trailing
  assemble ⟨year, month, day⟩ hour minute second nanos offset

end Rfc3339

/-- The text of an instant in universal time. -/
def Instant.toText (t : Instant) : String :=
  String.ofList (Rfc3339.render t)

end MediaCatalogue
