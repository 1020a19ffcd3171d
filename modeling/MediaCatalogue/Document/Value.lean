import MediaCatalogue.Calendar.Rfc3339
import MediaCatalogue.Fields
import MediaCatalogue.Number.Double

/-!
# Document values

What a field of a document holds: the kinds of JSON, with whole numbers of two widths beside doubles, and
instants and search patterns besides.

Two relations compare values. Equality tells the widths of numbers apart and compares everything else
part by part; the order compares numbers by what they are worth, and only values of one kind.
-/

set_option autoImplicit false

namespace MediaCatalogue

/-- The value of a field. -/
inductive Value where
  | null
  | bool (b : Bool)
  | int32 (n : Int32)
  | int64 (n : Int64)
  | float (x : Double)
  | string (s : String)
  | array (items : List Value)
  | object (fields : List (String × Value))
  | dateTime (t : Instant)
  | regex (pattern : String) (ignoreCase : Bool)
deriving Inhabited

namespace Value

/-! ## Views -/

/-- Whether the value is null. -/
def isNull : Value → Bool
  | .null => true
  | _ => false

/-- Whether the value is a number of any width. -/
def isNumber : Value → Bool
  | .int32 _ => true
  | .int64 _ => true
  | .float _ => true
  | _ => false

/-- The truth value. -/
def bool? : Value → Option Bool
  | .bool b => some b
  | _ => none

/-- The whole number of either width. -/
def int? : Value → Option Int64
  | .int32 n => some n.toInt64
  | .int64 n => some n
  | _ => none

/-- The number as a double, rounded to the nearest. -/
def double? : Value → Option Double
  | .int32 n => some (Double.ofInt n.toInt)
  | .int64 n => some (Double.ofInt n.toInt)
  | .float x => some x
  | _ => none

/-- The text, if the value is one. -/
def string? : Value → Option String
  | .string s => some s
  | _ => none

/-- The instant, if the value is one. -/
def dateTime? : Value → Option Instant
  | .dateTime t => some t
  | _ => none

/-- The items, if the value is an array. -/
def array? : Value → Option (List Value)
  | .array items => some items
  | _ => none

/-- The fields, if the value is an object. -/
def object? : Value → Option (Fields Value)
  | .object fields => some fields
  | _ => none

/-! ## Measures -/

mutual

/-- The approximate size in bytes. -/
def size : Value → Nat
  | .null => 1
  | .bool _ => 1
  | .int32 _ => 4
  | .int64 _ => 8
  | .float _ => 8
  | .dateTime _ => 8
  | .string s => s.utf8ByteSize
  | .regex pattern _ => pattern.utf8ByteSize + 1
  | .array items => sizeOfItems items + 8
  | .object fields => sizeOfFields fields + 8

/-- The size of items together. -/
def sizeOfItems : List Value → Nat
  | [] => 0
  | v :: vs => v.size + sizeOfItems vs

/-- The size of fields together, with their names. -/
def sizeOfFields : List (String × Value) → Nat
  | [] => 0
  | (name, v) :: fs => name.utf8ByteSize + v.size + sizeOfFields fs

end

mutual

/-- How deep arrays and objects are nested in the value. -/
def depth : Value → Nat
  | .array items => 1 + depthOfItems items
  | .object fields => 1 + depthOfFields fields
  | _ => 0

/-- How deep the deepest of some items is nested. -/
def depthOfItems : List Value → Nat
  | [] => 0
  | v :: vs => max v.depth (depthOfItems vs)

/-- How deep the deepest of some fields is nested. -/
def depthOfFields : List (String × Value) → Nat
  | [] => 0
  | (_, v) :: fs => max v.depth (depthOfFields fs)

end

/-! ## Equality and order -/

mutual

/-- Whether two values are equal part by part. Numbers of different widths are not; doubles are compared
as numbers, so that the zeros are equal and what is no number equals nothing. -/
def equals : Value → Value → Bool
  | .null, .null => true
  | .bool a, .bool b => a == b
  | .int32 a, .int32 b => a == b
  | .int64 a, .int64 b => a == b
  | .float a, .float b => a.equals b
  | .string a, .string b => a == b
  | .array as, .array bs => equalItems as bs
  | .object as, .object bs => equalFields as bs
  | .dateTime a, .dateTime b => a == b
  | .regex p i, .regex q j => p == q && i == j
  | _, _ => false

/-- Whether two rows of items are equal. -/
def equalItems : List Value → List Value → Bool
  | [], [] => true
  | a :: as, b :: bs => a.equals b && equalItems as bs
  | _, _ => false

/-- Whether two rows of fields are equal. -/
def equalFields : List (String × Value) → List (String × Value) → Bool
  | [], [] => true
  | (m, a) :: as, (n, b) :: bs => m == n && a.equals b && equalFields as bs
  | _, _ => false

end

/-- How two values are ordered, if they are of one kind. Whole numbers are compared exactly; a whole number
and a double are compared as doubles. -/
def compare? (a b : Value) : Option Ordering :=
  match a, b with
  | .null, .null => some .eq
  | .bool a, .bool b => some (compare a.toNat b.toNat)
  | .string a, .string b => some (compare a b)
  | .dateTime a, .dateTime b => some (compare a b)
  | a, b =>
    match a.int?, b.int? with
    | some m, some n => some (compare m.toInt n.toInt)
    | _, _ =>
      match a.double?, b.double? with
      | some x, some y => x.compare? y
      | _, _ => none

mutual

/-- Whether the fields of all objects within a value are in order. -/
def WellFormed : Value → Prop
  | .array items => WellFormedItems items
  | .object fields => Fields.Sorted fields ∧ WellFormedFields fields
  | _ => True

/-- Whether the fields within all of some items are in order. -/
def WellFormedItems : List Value → Prop
  | [] => True
  | v :: vs => v.WellFormed ∧ WellFormedItems vs

/-- Whether the fields within the values of some fields are in order; these themselves need not be. -/
def WellFormedFields : List (String × Value) → Prop
  | [] => True
  | (_, v) :: fs => v.WellFormed ∧ WellFormedFields fs

end

end Value
end MediaCatalogue
