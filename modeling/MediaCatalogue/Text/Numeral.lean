/-!
# Numbers as text

The value of digits, and the readers of whole numbers of 64 bits. A number may have a sign in front, and
any number of zeros; a minus sign is only taken where negative numbers are.
-/

set_option autoImplicit false

namespace MediaCatalogue.Text

/-- The number that a row of decimal digits stands for. -/
def digitsValue (ds : List Char) : Nat :=
  ds.foldl (fun n c => 10 * n + (c.toNat - 48)) 0

/-- The value of a hexadecimal digit. -/
def hexValue? (c : Char) : Option Nat :=
  if c.isDigit then some (c.toNat - 48)
  else if 'a' ≤ c ∧ c ≤ 'f' then some (c.toNat - 87)
  else if 'A' ≤ c ∧ c ≤ 'F' then some (c.toNat - 55)
  else none

/-- The number that a row holds if it is all digits and not empty. -/
def allDigits? (ds : List Char) : Option Nat :=
  if ds.isEmpty || !ds.all Char.isDigit then none else some (digitsValue ds)

/-- The largest number of 64 bits. -/
def maxWord : Nat := 18446744073709551615

/-- Read a number from 0 to 2^64 - 1, with or without a plus sign. -/
def readWord? (cs : List Char) : Option Nat :=
  let ds := match cs with
    | '+' :: rest => rest
    | cs => cs
  (allDigits? ds).filter (· ≤ maxWord)

/-- Why a text is refused as a signed number of 64 bits. -/
inductive NumeralError where
  | notDigits
  | tooLarge
  | tooSmall
deriving DecidableEq

/-- What is said of a text that is refused. -/
def NumeralError.message : NumeralError → String
  | .notDigits => "invalid digit found in string"
  | .tooLarge => "number too large to fit in target type"
  | .tooSmall => "number too small to fit in target type"

/-- Read digits as a number up to a limit. What is wrong first, from the left, is what is reported: digits
that pass the limit, or a character that is no digit. -/
def readUpTo (limit : Nat) (beyond : NumeralError) (cs : List Char) : Except NumeralError Nat :=
  let ds := cs.takeWhile Char.isDigit
  if limit < digitsValue ds then .error beyond
  else if ds.isEmpty || ds.length < cs.length then .error .notDigits
  else .ok (digitsValue ds)

/-- Read a number from -2^63 to 2^63 - 1. -/
def readInt64 (s : String) : Except NumeralError Int64 :=
  match s.toList with
  | '-' :: cs => (readUpTo 9223372036854775808 .tooSmall cs).map fun n => Int64.ofInt (-(n : Int))
  | '+' :: cs => (readUpTo 9223372036854775807 .tooLarge cs).map fun n => Int64.ofInt n
  | cs => (readUpTo 9223372036854775807 .tooLarge cs).map fun n => Int64.ofInt n

end MediaCatalogue.Text
