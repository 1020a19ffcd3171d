import MediaCatalogue.Calendar.Date
import MediaCatalogue.Text.Numeral
import MediaCatalogue.Toml.Tables

/-!
# Reading configuration files

The text is a row of lines, each blank, a heading or an entry, with a comment after it if there is one.
Strings may be quoted in four ways, whole numbers be written in four bases, and values of arrays be spread
over lines. The reader of a value takes fuel from the length of the text and a bound on the nesting.
-/

set_option autoImplicit false

namespace MediaCatalogue.Toml

/-! ## Space and comments -/

/-- Drop blanks and tabs. -/
def skipBlanks (cs : List Char) : List Char :=
  cs.dropWhile fun c => c = ' ' || c = '\t'

/-- Whether a character may stand in a comment or a literal string. -/
def isPlain (c : Char) : Bool :=
  c = '\t' || (32 ≤ c.toNat && c.toNat != 127)

/-- Drop a comment, up to the end of its line. -/
def skipComment (cs : List Char) : List Char :=
  match cs with
  | '#' :: rest => rest.dropWhile isPlain
  | cs => cs

/-- Take a line end off the front. -/
def lineEnd? (cs : List Char) : Option (List Char) :=
  match cs with
  | '\n' :: rest => some rest
  | '\r' :: '\n' :: rest => some rest
  | _ => none

/-- Drop what may follow on a line, and its end. -/
def endLine? (cs : List Char) : Option (List Char) :=
  match skipComment (skipBlanks cs) with
  | [] => some []
  | cs => lineEnd? cs

/-- Drop blanks, comments and line ends; at most as many as the fuel. -/
def skipLines : Nat → List Char → List Char
  | 0, cs => cs
  | fuel + 1, cs =>
    let cs := skipComment (skipBlanks cs)
    match lineEnd? cs with
    | some rest => skipLines fuel rest
    | none => cs

/-! ## Strings and keys -/

/-- Read a character given by so many hexadecimal digits. -/
def readCodePoint (digits : Nat) (cs : List Char) : Option (Char × List Char) :=
  let ds := cs.take digits
  if ds.length < digits then none
  else
    match ds.foldlM (fun n c => (Text.hexValue? c).map (16 * n + ·)) 0 with
    | some n => if n.isValidChar then some (Char.ofNat n, cs.drop digits) else none
    | none => none

/-- Read an escape, after its backslash. -/
def readEscaped (cs : List Char) : Option (Char × List Char) :=
  match cs with
  | 'b' :: rest => some (Char.ofNat 8, rest)
  | 't' :: rest => some ('\t', rest)
  | 'n' :: rest => some ('\n', rest)
  | 'f' :: rest => some (Char.ofNat 12, rest)
  | 'r' :: rest => some ('\r', rest)
  | '"' :: rest => some ('"', rest)
  | '\\' :: rest => some ('\\', rest)
  | 'u' :: rest => readCodePoint 4 rest
  | 'U' :: rest => readCodePoint 8 rest
  | _ => none

/-- Read a string on one line, after its opening quote; the characters read are in reverse. -/
def readBasic : Nat → List Char → List Char → Option (String × List Char)
  | 0, _, _ => none
  | fuel + 1, done, cs =>
    match cs with
    | '"' :: rest => some (String.ofList done.reverse, rest)
    | '\\' :: rest =>
      match readEscaped rest with
      | some (c, rest) => readBasic fuel (c :: done) rest
      | none => none
    | c :: rest => if isPlain c then readBasic fuel (c :: done) rest else none
    | [] => none

/-- Read a literal string, after its opening quote. -/
def readLiteral (cs : List Char) : Option (String × List Char) :=
  let body := cs.takeWhile fun c => isPlain c && c != '\x27'
  match cs.drop body.length with
  | '\x27' :: rest => some (String.ofList body, rest)
  | _ => none

/-- Drop blanks and line ends. -/
def skipBlankLines : List Char → List Char
  | ' ' :: rest => skipBlankLines rest
  | '\t' :: rest => skipBlankLines rest
  | '\n' :: rest => skipBlankLines rest
  | '\r' :: '\n' :: rest => skipBlankLines rest
  | cs => cs

/-- Whether a backslash ends its line: only blanks stand between it and the line end. The text after all
blanks and line ends that follow. -/
def continuation? (cs : List Char) : Option (List Char) :=
  (lineEnd? (skipBlanks cs)).map skipBlankLines

/-- Read a string over several lines, after its three opening quotes `q`; `escapes` says whether a
backslash has a meaning. Up to two quotes may stand before the three that close it. -/
def readLong (q : Char) (escapes : Bool) : Nat → List Char → List Char → Option (String × List Char)
  | 0, _, _ => none
  | fuel + 1, done, cs =>
    match cs with
    | [] => none
    | c :: rest =>
      if c = q then
        let quotes := cs.takeWhile (· == q)
        let count := quotes.length
        let after := cs.drop count
        if count < 3 then readLong q escapes fuel (quotes ++ done) after
        else if count ≤ 5 then some (String.ofList ((List.replicate (count - 3) q) ++ done).reverse, after)
        else none
      else if escapes && c = '\\' then
        match continuation? rest with
        | some rest => readLong q escapes fuel done rest
        | none =>
          match readEscaped rest with
          | some (e, rest) => readLong q escapes fuel (e :: done) rest
          | none => none
      else
        match lineEnd? cs with
        | some rest => readLong q escapes fuel ('\n' :: done) rest
        | none => if isPlain c then readLong q escapes fuel (c :: done) rest else none

/-- Drop the line end that may follow the opening quotes of a long string. -/
def skipFirstLineEnd (cs : List Char) : List Char :=
  (lineEnd? cs).getD cs

/-- Read a string of any kind. -/
def readString (cs : List Char) : Option (String × List Char) :=
  match cs with
  | '"' :: '"' :: '"' :: rest => readLong '"' true (rest.length + 1) [] (skipFirstLineEnd rest)
  | '\x27' :: '\x27' :: '\x27' :: rest =>
    readLong '\x27' false (rest.length + 1) [] (skipFirstLineEnd rest)
  | '"' :: rest => readBasic (rest.length + 1) [] rest
  | '\x27' :: rest => readLiteral rest
  | _ => none

/-- Whether a character may stand in a key without quotes. -/
def isBare (c : Char) : Bool :=
  c.isAlphanum || c = '_' || c = '-'

/-- Read one part of a key: a text between quotes, or letters, digits, dashes and underscores. -/
def readKeyPart (cs : List Char) : Option (String × List Char) :=
  match cs with
  | '"' :: rest => readBasic (rest.length + 1) [] rest
  | '\x27' :: rest => readLiteral rest
  | cs =>
    let name := cs.takeWhile isBare
    if name.isEmpty then none else some (String.ofList name, cs.drop name.length)

/-- How deep values may be nested, and how many parts a key may have. -/
def maxNesting : Nat := 79

/-- Read a key with its parts, and the blanks around it; `parts` bounds their number. -/
def readKeyParts : Nat → List Char → Option (List String × List Char)
  | 0, _ => none
  | parts + 1, cs =>
    match readKeyPart (skipBlanks cs) with
    | none => none
    | some (part, rest) =>
      match skipBlanks rest with
      | '.' :: rest => (readKeyParts parts rest).map fun (others, rest) => (part :: others, rest)
      | rest => some ([part], rest)

/-- Read a key with its parts, of which there may not be too many. -/
def readKey (cs : List Char) : Option (List String × List Char) :=
  readKeyParts maxNesting cs

/-! ## Numbers and dates -/

/-- Take the underscores out of digits; each must stand between two digits. -/
def plainDigits? (isDigit : Char → Bool) : List Char → Option (List Char)
  | [] => none
  | [d] => if isDigit d then some [d] else none
  | d :: '_' :: rest => if isDigit d then (plainDigits? isDigit rest).map (d :: ·) else none
  | d :: rest => if isDigit d then (plainDigits? isDigit rest).map (d :: ·) else none

/-- The value of digits in a base. -/
def baseValue? (base : Nat) (ds : List Char) : Option Nat :=
  let isDigit (c : Char) : Bool := (Text.hexValue? c).any (· < base)
  (plainDigits? isDigit ds).bind fun ds =>
    ds.foldlM (fun n c => (Text.hexValue? c).map (base * n + ·)) 0

/-- The sign at the front, and what follows it. -/
def readSign (cs : List Char) : Bool × List Char :=
  match cs with
  | '-' :: rest => (true, rest)
  | '+' :: rest => (false, rest)
  | cs => (false, cs)

/-- The decimal digits of a whole number: none begins with a zero but zero itself. -/
def wholeDigits? (cs : List Char) : Option (List Char) :=
  (plainDigits? Char.isDigit cs).filter fun ds => ds.length = 1 || ds.head? != some '0'

/-- A whole number, if it fits 64 bits. -/
def integer? (cs : List Char) : Option Toml :=
  let inRange (n : Int) : Option Toml :=
    if -9223372036854775808 ≤ n ∧ n ≤ 9223372036854775807 then some (.integer n) else none
  match cs with
  | '0' :: 'x' :: ds => (baseValue? 16 ds).bind fun n => inRange n
  | '0' :: 'o' :: ds => (baseValue? 8 ds).bind fun n => inRange n
  | '0' :: 'b' :: ds => (baseValue? 2 ds).bind fun n => inRange n
  | cs =>
    let (negative, ds) := readSign cs
    (wholeDigits? ds).bind fun ds =>
      let n : Int := Text.digitsValue ds
      inRange (if negative then -n else n)

/-- The exponent of a number, after its letter. -/
def exponent? (cs : List Char) : Option Int :=
  let (negative, ds) := readSign cs
  (plainDigits? Char.isDigit ds).map fun ds =>
    let n : Int := Text.digitsValue ds
    if negative then -n else n

/-- A number with a fraction or an exponent, or one of the words for what is no finite number. A number that
is too large is refused, one that is too small stands for the negative infinity. -/
def float? (cs : List Char) : Option Toml :=
  let (negative, body) := readSign cs
  if body = ['i', 'n', 'f'] then some (.float (Double.ofMagnitude negative Double.infinityBits))
  else if body = ['n', 'a', 'n'] then
    some (.float (Double.ofMagnitude negative (Double.infinityBits + Nat.pow 2 51)))
  else do
    let whole := body.takeWhile fun c => c.isDigit || c = '_'
    let rest := body.drop whole.length
    let wholePart ← wholeDigits? whole
    let (fraction, rest) ← match rest with
      | '.' :: rest =>
        let ds := rest.takeWhile fun c => c.isDigit || c = '_'
        (plainDigits? Char.isDigit ds).map fun digits => (digits, rest.drop ds.length)
      | rest => some ([], rest)
    let exponent ← match rest with
      | [] => if fraction.isEmpty then none else some 0
      | c :: rest => if c = 'e' || c = 'E' then exponent? rest else none
    let x := Double.ofDecimal negative (Text.digitsValue (wholePart ++ fraction))
      (exponent - fraction.length)
    if x.isFinite || negative then some (.float x) else none

/-- Read a number of exactly so many digits. -/
def readDigits (count : Nat) (cs : List Char) : Option (Nat × List Char) :=
  let ds := cs.take count
  if ds.length = count && ds.all Char.isDigit then some (Text.digitsValue ds, cs.drop count) else none

/-- Take a given character off the front. -/
def readChar (c : Char) (cs : List Char) : Option (List Char) :=
  match cs with
  | d :: rest => if d = c then some rest else none
  | [] => none

/-- Read a day that is in the calendar. -/
def readDate (cs : List Char) : Option (List Char) := do
  let (year, cs) ← readDigits 4 cs
  let (month, cs) ← readDigits 2 (← readChar '-' cs)
  let (day, cs) ← readDigits 2 (← readChar '-' cs)
  if (Date.mk year month day).isValid then return cs else none

/-- Read a time of day. -/
def readTime (cs : List Char) : Option (List Char) := do
  let (hour, cs) ← readDigits 2 cs
  let (minute, cs) ← readDigits 2 (← readChar ':' cs)
  let (second, cs) ← readDigits 2 (← readChar ':' cs)
  if 23 < hour || 59 < minute || 60 < second then none
  match cs with
  | '.' :: rest =>
    let ds := rest.takeWhile Char.isDigit
    if ds.isEmpty then none else return rest.drop ds.length
  | cs => return cs

/-- Drop an offset from universal time, if one follows. -/
def skipOffset (cs : List Char) : List Char :=
  let offset (rest : List Char) : Option (List Char) := do
    let (hour, rest) ← readDigits 2 rest
    let (minute, rest) ← readDigits 2 (← readChar ':' rest)
    if 23 < hour || 59 < minute then none else return rest
  match cs with
  | 'Z' :: rest => rest
  | 'z' :: rest => rest
  | '+' :: rest => (offset rest).getD cs
  | '-' :: rest => (offset rest).getD cs
  | cs => cs

/-- Read a date, a time, or both. -/
def readDateTime (cs : List Char) : Option (Toml × List Char) :=
  let taken (rest : List Char) : Toml × List Char :=
    (.dateTime (String.ofList (cs.take (cs.length - rest.length))), rest)
  match readDate cs with
  | some rest =>
    let time : Option (List Char) := match rest with
      | 'T' :: after => readTime after
      | 't' :: after => readTime after
      | ' ' :: after => readTime after
      | _ => none
    match time with
    | some after => some (taken (skipOffset after))
    | none => some (taken rest)
  | none => (readTime cs).map taken

/-- Read a number, a date or a word. -/
def readScalar (cs : List Char) : Option (Toml × List Char) :=
  match readDateTime cs with
  | some found => some found
  | none =>
    let word := cs.takeWhile fun c => isBare c || c = '+' || c = '.'
    let rest := cs.drop word.length
    if word = ['t', 'r', 'u', 'e'] then some (.boolean true, rest)
    else if word = ['f', 'a', 'l', 's', 'e'] then some (.boolean false, rest)
    else
      match integer? word with
      | some v => some (v, rest)
      | none => (float? word).map fun v => (v, rest)

/-! ## Values -/

mutual

/-- Read a value that may be nested `depth` deep. -/
def readValue (fuel depth : Nat) (cs : List Char) : Option (Toml × List Char) :=
  match fuel with
  | 0 => none
  | fuel + 1 =>
    match cs with
    | '"' :: _ => (readString cs).map fun (s, rest) => (.string s, rest)
    | '\x27' :: _ => (readString cs).map fun (s, rest) => (.string s, rest)
    | '[' :: rest => if depth = 0 then none else readItems fuel (depth - 1) [] rest
    | '\x7b' :: rest =>
      if depth = 0 then none
      else match skipBlanks rest with
        | '\x7d' :: rest => some (.table [], rest)
        | rest => readInline fuel (depth - 1) [] rest
    | cs => readScalar cs

/-- Read the items of an array; those before are in `done`, in reverse. -/
def readItems (fuel depth : Nat) (done : List Toml) (cs : List Char) : Option (Toml × List Char) :=
  match fuel with
  | 0 => none
  | fuel + 1 =>
    match skipLines cs.length cs with
    | ']' :: rest => some (.array done.reverse, rest)
    | cs =>
      match readValue fuel depth cs with
      | none => none
      | some (v, rest) =>
        match skipLines rest.length rest with
        | ',' :: rest => readItems fuel depth (v :: done) rest
        | ']' :: rest => some (.array (v :: done).reverse, rest)
        | _ => none

/-- Read the entries of a table on one line. -/
def readInline (fuel depth : Nat) (entries : Entries) (cs : List Char) : Option (Toml × List Char) :=
  match fuel with
  | 0 => none
  | fuel + 1 =>
    match readKey cs with
    | some (path, '=' :: rest) =>
      match readValue fuel depth (skipBlanks rest) with
      | none => none
      | some (v, rest) =>
        match putValue path v entries with
        | none => none
        | some entries =>
          match skipBlanks rest with
          | ',' :: rest => readInline fuel depth entries rest
          | '\x7d' :: rest => some (.table (entriesToToml entries), rest)
          | _ => none
    | _ => none

end

/-! ## Lines -/

/-- Read statements into the tables so far; `heading` is the path of the table that entries go into. -/
def readStatements : Nat → List String → Entries → List Char → Option Entries
  | 0, _, _, _ => none
  | fuel + 1, heading, root, cs =>
    match skipLines cs.length cs with
    | [] => some root
    | '[' :: '[' :: rest =>
      match readKey rest with
      | some (path, ']' :: ']' :: rest) =>
        match endLine? rest, addTable path root with
        | some rest, some root => readStatements fuel path root rest
        | _, _ => none
      | _ => none
    | '[' :: rest =>
      match readKey rest with
      | some (path, ']' :: rest) =>
        match endLine? rest, openTable path root with
        | some rest, some root => readStatements fuel path root rest
        | _, _ => none
      | _ => none
    | cs =>
      match readKey cs with
      | some (path, '=' :: rest) =>
        match readValue (2 * rest.length + 2) maxNesting (skipBlanks rest) with
        | none => none
        | some (v, rest) =>
          match endLine? rest, putValueAt heading path v root with
          | some rest, some root => readStatements fuel heading root rest
          | _, _ => none
      | _ => none

/-- Read the text of a configuration file. -/
def read (text : String) : Option Toml :=
  let cs := match text.toList with
    | '\ufeff' :: rest => rest
    | cs => cs
  (readStatements (cs.length + 1) [] [] cs).map fun root => .table (entriesToToml root)

end MediaCatalogue.Toml
