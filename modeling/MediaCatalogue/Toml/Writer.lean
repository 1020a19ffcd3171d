import MediaCatalogue.Json.Writer

/-!
# Writing configuration values

A text can stand between one or three quotes, which are double if backslashes have a meaning in it and single
if everything stands for itself. The plainest form that holds the text without a backslash is taken; if
there is none, the double quotes, three of them if the text has several lines. A list of at most one item is
written on one line, a longer one with an item on each line.
-/

set_option autoImplicit false

namespace MediaCatalogue.Toml

/-- How often a character stands next to itself, at most. -/
def longestRow (c : Char) (cs : List Char) : Nat :=
  (cs.foldl (fun (longest, now) d => if d = c then (max longest (now + 1), now + 1) else (longest, 0))
    (0, 0)).1

/-- Whether a character can only be written with a backslash: a control character other than a tab or a line
end. -/
def needsEscape (c : Char) : Bool :=
  (c.toNat < 32 && c != '\t' && c != '\n') || c.toNat = 127

/-- A character as it stands between double quotes. -/
def escapeChar (long : Bool) (c : Char) : List Char :=
  if c.toNat = 8 then ['\\', 'b']
  else if c = '\t' then ['\\', 't']
  else if c = '\n' then (if long then ['\n'] else ['\\', 'n'])
  else if c.toNat = 12 then ['\\', 'f']
  else if c = '\r' then ['\\', 'r']
  else if c = '\\' then ['\\', '\\']
  else if c.toNat < 32 || c.toNat = 127 then
    ['\\', 'u', '0', '0'] ++ ([c.toNat / 16, c.toNat].map fun n => (Json.hexDigit n).toUpper)
  else [c]

/-- The characters of a text as they stand between double quotes. So many double quotes in a row as `allowed`
stand for themselves; the one after them has a backslash, and the row begins anew. `now` have just been
written. -/
def escapeAll (long : Bool) (allowed : Nat) : Nat → List Char → List Char
  | _, [] => []
  | now, c :: cs =>
    if c = '"' then
      if now < allowed then '"' :: escapeAll long allowed (now + 1) cs
      else '\\' :: '"' :: escapeAll long allowed 0 cs
    else escapeChar long c ++ escapeAll long allowed 0 cs

/-- How a text is delimited. -/
inductive Quotation where
  | basic
  | literal
  | longBasic
  | longLiteral
deriving DecidableEq

/-- The plainest form that holds a text. -/
def Quotation.of (cs : List Char) : Quotation :=
  let singles := longestRow '\x27' cs
  let doubles := longestRow '"' cs
  let escapes := cs.any needsEscape
  let lines := cs.contains '\n'
  let backslash := cs.contains '\\'
  if !escapes && !backslash && doubles = 0 && !lines then .basic
  else if !escapes && singles = 0 && !lines then .literal
  else if !escapes && !backslash && doubles ≤ 2 then .longBasic
  else if !escapes && singles ≤ 2 then .longLiteral
  else if lines then .longBasic
  else .basic

/-- A text in quotes. A long form of several lines begins on a line of its own. -/
def quote (s : String) : String :=
  let cs := s.toList
  let start := if cs.contains '\n' then "\n" else ""
  match Quotation.of cs with
  | .basic => "\"" ++ String.ofList (escapeAll false 0 0 cs) ++ "\""
  | .literal => "\x27" ++ s ++ "\x27"
  | .longBasic => "\"\"\"" ++ start ++ String.ofList (escapeAll true 2 0 cs) ++ "\"\"\""
  | .longLiteral => "\x27\x27\x27" ++ start ++ s ++ "\x27\x27\x27"

/-- A list of texts. -/
def quoteList (ss : List String) : String :=
  match ss with
  | [] => "[]"
  | [s] => "[" ++ quote s ++ "]"
  | ss => "[\n" ++ String.join (ss.map fun s => "    " ++ quote s ++ ",\n") ++ "]"

/-- A truth value. -/
def boolText (b : Bool) : String :=
  if b then "true" else "false"

/-- A whole number, if it can be written: it must fit the signed range. -/
def natText? (n : Nat) : Option String :=
  if n ≤ 9223372036854775807 then some (toString n) else none

end MediaCatalogue.Toml
