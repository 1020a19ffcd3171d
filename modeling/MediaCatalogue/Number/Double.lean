/-!
# Double precision numbers

A double is its 64 bits: a sign, 11 bits of exponent and 52 bits of fraction. All that is asked of it
here is decided on the bits: which class it is in, how two doubles are ordered, and which double is
nearest to a ratio of natural numbers.

The order is that of the real numbers: the two zeros are equal, and a not-a-number is unordered with
everything, itself included. Equality of the structure, in contrast, tells all bits apart.
-/

set_option autoImplicit false

namespace MediaCatalogue

/-- A double precision number, given by its bits. -/
structure Double where
  bits : UInt64
deriving DecidableEq

namespace Double

instance : Inhabited Double := ⟨⟨0⟩⟩

/-- Two to the power 63: the sign bit. -/
def signBit : Nat := 0x8000000000000000

/-- The bits of positive infinity; what lies above it is no number. -/
def infinityBits : Nat := 0x7ff0000000000000

/-- Whether the sign bit is set. -/
def isNegative (x : Double) : Bool :=
  signBit ≤ x.bits.toNat

/-- The bits without the sign. -/
def magnitude (x : Double) : Nat :=
  x.bits.toNat % signBit

/-- Whether the bits stand for no number. -/
def isNaN (x : Double) : Bool :=
  infinityBits < x.magnitude

/-- Whether the bits stand for a real number. -/
def isFinite (x : Double) : Bool :=
  x.magnitude < infinityBits

/-- The place of a number in the order: magnitudes grow with the absolute value. -/
def rank (x : Double) : Int :=
  if x.isNegative then -(x.magnitude : Int) else x.magnitude

/-- How two numbers are ordered; `none` when one of them is no number. -/
def compare? (x y : Double) : Option Ordering :=
  if x.isNaN || y.isNaN then none else some (compare x.rank y.rank)

/-- Whether two doubles are equal as numbers. -/
def equals (x y : Double) : Bool :=
  x.compare? y == some .eq

/-- The double with a sign and the bits of its magnitude. -/
def ofMagnitude (negative : Bool) (magnitude : Nat) : Double :=
  ⟨UInt64.ofNat (if negative then signBit + magnitude else magnitude)⟩

/-- Divide two natural numbers and round to the nearest, a half to the even neighbour. -/
def divNearest (num den : Nat) : Nat :=
  let q := num / den
  let r := num % den
  if 2 * r > den || (2 * r == den && q % 2 == 1) then q + 1 else q

/-- The logarithm to base two of a positive ratio, rounded down. -/
def ratioLog2 (num den : Nat) : Int :=
  let l : Int := (Nat.log2 num : Int) - Nat.log2 den
  if num <<< (-l).toNat < den <<< l.toNat then l - 1 else l

/-- The magnitude nearest to `num / den`: the fraction in units of the last place, counted from the
smallest double, runs over from one exponent to the next and at last to infinity. -/
def nearestMagnitude (num den : Nat) : Nat :=
  if num = 0 then 0
  else
    let unit := max (ratioLog2 num den - 52) (-1074)
    let units := divNearest (num <<< (-unit).toNat) (den <<< unit.toNat)
    min ((unit + 1074).toNat * Nat.pow 2 52 + units) infinityBits

/-- The double nearest to a whole number. -/
def ofInt (n : Int) : Double :=
  ofMagnitude (n < 0) (nearestMagnitude n.natAbs 1)

/-- The double nearest to `digits * 10 ^ exponent`, with a sign. Exponents that no digits can bring
into range are decided at once. -/
def ofDecimal (negative : Bool) (digits : Nat) (exponent : Int) : Double :=
  let size : Int := Nat.log2 digits
  ofMagnitude negative <|
    if digits = 0 then 0
    else if exponent > 400 then infinityBits
    else if exponent * 3 + size < -1200 then 0
    else nearestMagnitude (digits * Nat.pow 10 exponent.toNat) (Nat.pow 10 (-exponent).toNat)

/-- The two natural numbers and the exponent of two with `magnitude = fraction * 2 ^ exponent`, and
whether the next double below is only half as far away as the one above. -/
def decode (x : Double) : Nat × Int × Bool :=
  let e : Nat := x.magnitude / Nat.pow 2 52
  let f : Nat := x.magnitude % Nat.pow 2 52
  if e = 0 then (f, -1074, false) else (f + Nat.pow 2 52, (e : Int) - 1075, f = 0 && 1 < e)

end Double
end MediaCatalogue
