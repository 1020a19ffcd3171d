import MediaCatalogue.Json.Basic
import MediaCatalogue.Text.Numeral

/-!
# Reading JSON

The whole text must be one value with white space around it. Objects and arrays may be nested at most
127 deep. A number with a fraction or an exponent is read as the nearest double, and so is minus zero
and an integer that fits neither the signed nor the unsigned 64-bit range; a number too large for a
double is refused. Escaped surrogates must come in pairs.
-/

set_option autoImplicit false

namespace MediaCatalogue.Json

/-- Drop the white space that JSON allows. -/
def skipSpace (cs : List Char) : List Char :=
  cs.dropWhile fun c => c = ' ' || c = '\n' || c = '\t' || c = '\r'

/-- The value of four hexadecimal digits. -/
def hexUnit? (a b c d : Char) : Option Nat := do
  return (((← Text.hexValue? a) * 16 + (← Text.hexValue? b)) * 16 + (← Text.hexValue? c)) * 16 + (← Text.hexValue? d)

/-- The character that a letter after a backslash stands for. -/
def escaped? (c : Char) : Option Char :=
  match c with
  | '"' => some '"'
  | '\\' => some '\\'
  | '/' => some '/'
  | 'b' => some (Char.ofNat 8)
  | 'f' => some (Char.ofNat 12)
  | 'n' => some '\n'
  | 'r' => some '\r'
  | 't' => some '\t'
  | _ => none

/-- Read a string after its opening quote; `done` holds the characters before, in reverse. -/
def readString (done : List Char) : List Char → Option (String × List Char)
  | [] => none
  | '"' :: rest => some (String.ofList done.reverse, rest)
  | '\\' :: 'u' :: a :: b :: c :: d :: '\\' :: 'u' :: e :: f :: g :: h :: rest =>
    match hexUnit? a b c d with
    | none => none
    | some unit =>
      if 0xd800 ≤ unit ∧ unit < 0xdc00 then
        match hexUnit? e f g h with
        | none => none
        | some low =>
          if 0xdc00 ≤ low ∧ low < 0xe000 then
            readString (Char.ofNat (0x10000 + (unit - 0xd800) * 0x400 + (low - 0xdc00)) :: done) rest
          else none
      else if 0xdc00 ≤ unit ∧ unit < 0xe000 then none
      else readString (Char.ofNat unit :: done) ('\\' :: 'u' :: e :: f :: g :: h :: rest)
  | '\\' :: 'u' :: a :: b :: c :: d :: rest =>
    match hexUnit? a b c d with
    | none => none
    | some unit =>
      if 0xd800 ≤ unit ∧ unit < 0xe000 then none
      else readString (Char.ofNat unit :: done) rest
  | '\\' :: c :: rest =>
    match escaped? c with
    | none => none
    | some e => readString (e :: done) rest
  | c :: rest => if c.toNat < 32 || c = '\\' then none else readString (c :: done) rest
termination_by cs => cs.length

/-- The digits at the front of a text, and what follows them. -/
def spanDigits (cs : List Char) : List Char × List Char :=
  cs.span Char.isDigit

/-- Read the exponent of a number, if one follows: whether there is one, its value, and the rest. -/
def readExponent (cs : List Char) : Option (Bool × Int × List Char) :=
  match cs with
  | c :: rest =>
    if c = 'e' || c = 'E' then
      let (negative, rest) := match rest with
        | '-' :: r => (true, r)
        | '+' :: r => (false, r)
        | r => (false, r)
      let (ds, rest) := spanDigits rest
      if ds.isEmpty then none
      else
        let n : Int := Text.digitsValue ds
        some (true, if negative then -n else n, rest)
    else some (false, 0, cs)
  | [] => some (false, 0, [])

/-- Read the digits after the point, if one follows. -/
def readFraction (cs : List Char) : Option (List Char × List Char) :=
  match cs with
  | '.' :: rest =>
    let (ds, rest) := spanDigits rest
    if ds.isEmpty then none else some (ds, rest)
  | _ => some ([], cs)

/-- Whether an integer fits the signed or the unsigned 64-bit range. -/
def fitsWord (n : Int) : Bool :=
  -9223372036854775808 ≤ n && n ≤ 18446744073709551615

/-- Read a number: a whole number that fits a word of 64 bits exactly, any other as the nearest double,
which has to be finite. The zero with a minus sign is a double. -/
def readNumber (cs : List Char) : Option (Json × List Char) := do
  let (negative, cs) := match cs with
    | '-' :: r => (true, r)
    | r => (false, r)
  let (whole, cs) := spanDigits cs
  if whole.isEmpty || (whole.length > 1 && whole.headD ' ' = '0') then none
  let (fraction, cs) ← readFraction cs
  let (hasExponent, exponent, cs) ← readExponent cs
  let n : Int := Text.digitsValue whole
  let signed := if negative then -n else n
  if fraction.isEmpty && !hasExponent && fitsWord signed && !(negative && n == 0) then
    return (.int signed, cs)
  else
    let x := Double.ofDecimal negative (Text.digitsValue (whole ++ fraction)) (exponent - fraction.length)
    if x.isFinite then return (.float x, cs) else none

/-- Take a word off the front of a text. -/
def readWord (word : List Char) (value : Json) (cs : List Char) : Option (Json × List Char) :=
  if word.isPrefixOf cs then some (value, cs.drop word.length) else none

mutual

/-- Read a value that may be nested `depth` deep. -/
def readValue (fuel depth : Nat) (cs : List Char) : Option (Json × List Char) :=
  match fuel with
  | 0 => none
  | fuel + 1 =>
    match skipSpace cs with
    | '"' :: rest => (readString [] rest).map fun (s, rest) => (.string s, rest)
    | '[' :: rest =>
      if depth = 0 then none
      else match skipSpace rest with
        | ']' :: rest => some (.array [], rest)
        | rest => readItems fuel (depth - 1) [] rest
    | '\x7b' :: rest =>
      if depth = 0 then none
      else match skipSpace rest with
        | '\x7d' :: rest => some (.object [], rest)
        | rest => readMembers fuel (depth - 1) [] rest
    | 'n' :: rest => readWord ['u', 'l', 'l'] .null rest
    | 't' :: rest => readWord ['r', 'u', 'e'] (.bool true) rest
    | 'f' :: rest => readWord ['a', 'l', 's', 'e'] (.bool false) rest
    | rest => readNumber rest

/-- Read the items of an array; those before are in `done`, in reverse. -/
def readItems (fuel depth : Nat) (done : List Json) (cs : List Char) : Option (Json × List Char) :=
  match fuel with
  | 0 => none
  | fuel + 1 =>
    match readValue fuel depth cs with
    | none => none
    | some (j, rest) =>
      match skipSpace rest with
      | ',' :: rest => readItems fuel depth (j :: done) rest
      | ']' :: rest => some (.array (j :: done).reverse, rest)
      | _ => none

/-- Read the members of an object; those before are in `done`, in reverse. -/
def readMembers (fuel depth : Nat) (done : List (String × Json)) (cs : List Char) :
    Option (Json × List Char) :=
  match fuel with
  | 0 => none
  | fuel + 1 =>
    match skipSpace cs with
    | '"' :: rest =>
      match readString [] rest with
      | none => none
      | some (name, rest) =>
        match skipSpace rest with
        | ':' :: rest =>
          match readValue fuel depth rest with
          | none => none
          | some (j, rest) =>
            match skipSpace rest with
            | ',' :: rest => readMembers fuel depth ((name, j) :: done) rest
            | '\x7d' :: rest => some (.object ((name, j) :: done).reverse, rest)
            | _ => none
        | _ => none
    | _ => none

end

/-- Read a text that is one value with nothing behind it, nested at most 127 deep. -/
def read (text : String) : Option Json :=
  let cs := text.toList
  match readValue (2 * cs.length + 2) 127 cs with
  | some (j, rest) => if (skipSpace rest).isEmpty then some j else none
  | none => none

end MediaCatalogue.Json
