import MediaCatalogue.Json.Basic
import MediaCatalogue.Number.Shortest

/-!
# Writing JSON

Two forms of text: the compact one on one line without spaces, and the one with two spaces of
indentation for each level. Both escape only what must be escaped: the quote, the backslash and the
control characters.
-/

set_option autoImplicit false

namespace MediaCatalogue.Json

/-- The hexadecimal digit for the last four bits of a number. -/
def hexDigit (n : Nat) : Char :=
  (Nat.toDigits 16 (n % 16)).headD '0'

/-- A character as it stands in a quoted text. -/
def escapeChar (c : Char) : List Char :=
  if c = '"' then ['\\', '"']
  else if c = '\\' then ['\\', '\\']
  else if c = '\n' then ['\\', 'n']
  else if c = '\r' then ['\\', 'r']
  else if c = '\t' then ['\\', 't']
  else if c.toNat = 8 then ['\\', 'b']
  else if c.toNat = 12 then ['\\', 'f']
  else if c.toNat < 32 then ['\\', 'u', '0', '0', hexDigit (c.toNat / 16), hexDigit c.toNat]
  else [c]

/-- A text between quotes, with its characters escaped where they must be. -/
def quote (s : String) : String :=
  String.ofList ('"' :: s.toList.flatMap escapeChar ++ ['"'])

/-- The text of a value that has no parts; a double that is not finite has none and is null. -/
def scalarText : Json → String
  | .bool true => "true"
  | .bool false => "false"
  | .int n => toString n
  | .float x => if x.isFinite then x.toText else "null"
  | .string s => quote s
  | _ => "null"

mutual

/-- The pieces of the text on one line, put in front of `rest`. -/
def compactPieces (rest : List String) : Json → List String
  | .array items => "[" :: compactItems ("]" :: rest) true items
  | .object members => "\x7b" :: compactMembers ("\x7d" :: rest) true members
  | j => scalarText j :: rest

/-- The pieces of items, with a comma before each but the first. -/
def compactItems (rest : List String) (first : Bool) : List Json → List String
  | [] => rest
  | j :: js =>
    let more := compactPieces (compactItems rest false js) j
    if first then more else "," :: more

/-- The pieces of members, with a comma before each but the first. -/
def compactMembers (rest : List String) (first : Bool) : List (String × Json) → List String
  | [] => rest
  | (name, j) :: ms =>
    let more := quote name :: ":" :: compactPieces (compactMembers rest false ms) j
    if first then more else "," :: more

end

/-- The text of a value on one line. -/
def compact (j : Json) : String :=
  String.join (compactPieces [] j)

/-- A line break and the indentation of a level. -/
def newLine (level : Nat) : String :=
  String.ofList ('\n' :: List.replicate (2 * level) ' ')

mutual

/-- The pieces of the indented text at a level, put in front of `rest`. -/
def prettyPieces (level : Nat) (rest : List String) : Json → List String
  | .array [] => "[]" :: rest
  | .object [] => "\x7b\x7d" :: rest
  | .array items => "[" :: prettyItems (level + 1) (newLine level :: "]" :: rest) true items
  | .object members =>
    "\x7b" :: prettyMembers (level + 1) (newLine level :: "\x7d" :: rest) true members
  | j => scalarText j :: rest

/-- The pieces of items, each on a line of its own. -/
def prettyItems (level : Nat) (rest : List String) (first : Bool) : List Json → List String
  | [] => rest
  | j :: js =>
    let more := newLine level :: prettyPieces level (prettyItems level rest false js) j
    if first then more else "," :: more

/-- The pieces of members, each on a line of its own. -/
def prettyMembers (level : Nat) (rest : List String) (first : Bool) :
    List (String × Json) → List String
  | [] => rest
  | (name, j) :: ms =>
    let more := newLine level :: quote name :: ": " ::
      prettyPieces level (prettyMembers level rest false ms) j
    if first then more else "," :: more

end

/-- The text of a value with two spaces of indentation for each level. -/
def pretty (j : Json) : String :=
  String.join (prettyPieces 0 [] j)

end MediaCatalogue.Json
