import MediaCatalogue.Number.Double

/-!
# The shortest decimal text of a double

A double is written with the fewest decimal digits that read back as it. The reals that read back as it
form an interval, which holds its two ends when the fraction is even. For one digit, then two, and so
on, the value has two neighbours on the grid of decimals with so many digits; the first grid with a
neighbour in the interval wins, of two neighbours the nearer, and of two equally near ones the even.
-/

set_option autoImplicit false

namespace MediaCatalogue.Double

/-- The interval of reals that read back as a double: centre and distances to the ends, all over one
denominator. -/
structure Interval where
  centre : Nat
  below : Nat
  above : Nat
  denominator : Nat
  closed : Bool

/-- The interval around a finite double, its sign left out. -/
def interval (x : Double) : Interval :=
  let (fraction, exponent, narrowBelow) := x.decode
  let up := Nat.pow 2 exponent.toNat
  { centre := 4 * fraction * up
    below := (if narrowBelow then 1 else 2) * up
    above := 2 * up
    denominator := 4 * Nat.pow 2 (-exponent).toNat
    closed := fraction % 2 == 0 }

/-- Whether the interval holds `num / den`. -/
def Interval.holds (i : Interval) (num den : Nat) : Bool :=
  let point := num * i.denominator
  let centre := i.centre * den
  if centre ≤ point then
    if i.closed then point - centre ≤ i.above * den else point - centre < i.above * den
  else
    if i.closed then centre - point ≤ i.below * den else centre - point < i.below * den

/-- The digits of the neighbour on the grid of multiples of `10 ^ place` that reads back, if any. -/
def gridDigits? (i : Interval) (place : Int) : Option Nat :=
  let scale := Nat.pow 10 place.toNat
  let den := Nat.pow 10 (-place).toNat
  let low := i.centre * den / (i.denominator * scale)
  let lowHolds := i.holds (low * scale) den
  let highHolds := i.holds ((low + 1) * scale) den
  if lowHolds && highHolds then
    let twice := 2 * i.centre * den
    let middle := (2 * low + 1) * scale * i.denominator
    if twice < middle then some low
    else if middle < twice then some (low + 1)
    else some (if low % 2 == 0 then low else low + 1)
  else if lowHolds then some low
  else if highHolds then some (low + 1)
  else none

/-- Search the grids from a place downward. -/
def shortestFrom (i : Interval) : Nat → Int → Nat × Int
  | 0, place => (0, place)
  | fuel + 1, place =>
    match gridDigits? i place with
    | some digits => (digits, place)
    | none => shortestFrom i fuel (place - 1)

/-- Drop the zeros at the end of the digits. -/
def stripZeros : Nat → Nat × Int → Nat × Int
  | 0, r => r
  | fuel + 1, (digits, place) =>
    if digits % 10 = 0 ∧ digits ≠ 0 then stripZeros fuel (digits / 10, place + 1)
    else (digits, place)

/-- The fewest digits, as a number, and the place of the last one, for a positive finite double. -/
def shortest (x : Double) : Nat × Int :=
  let (fraction, exponent, _) := x.decode
  let size : Int := exponent + Nat.log2 fraction
  stripZeros 20 (shortestFrom x.interval 30 (size * 30103 / 100000 + 2))

/-- The text of a finite double in JSON: positional while the point stands from five places before the
first digit to sixteen digits after it, with a fraction always; otherwise with an exponent, which has its
sign written. -/
def toText (x : Double) : String :=
  let sign := if x.isNegative then "-" else ""
  if x.magnitude = 0 then sign ++ "0.0"
  else
    let (digits, place) := x.shortest
    let ds := (toString digits).toList
    let count : Int := ds.length
    let point := count + place
    let zeros (n : Int) : List Char := List.replicate n.toNat '0'
    let body : List Char :=
      if 0 ≤ place ∧ point ≤ 16 then ds ++ zeros place ++ ['.', '0']
      else if 0 < point ∧ point ≤ 16 then ds.take point.toNat ++ '.' :: ds.drop point.toNat
      else if -5 < point ∧ point ≤ 0 then ['0', '.'] ++ zeros (-point) ++ ds
      else
        let tail := ds.drop 1
        let mark := if 0 < point then "e+" else "e"
        ds.take 1 ++ (if tail.isEmpty then [] else '.' :: tail) ++ mark.toList ++ (toString (point - 1)).toList
    sign ++ String.ofList body

end MediaCatalogue.Double
