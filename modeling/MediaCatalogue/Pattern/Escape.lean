import MediaCatalogue.Pattern.Basic
import MediaCatalogue.Text.Numeral

/-!
# Escapes in a pattern

A backslash gives a character with a meaning back to itself, and gives some letters a meaning: a set of
characters, a position, or a character by its code point.
-/

set_option autoImplicit false

namespace MediaCatalogue.Pattern

/-- Characters that stand for something other than themselves. -/
def isMeta (c : Char) : Bool :=
  "\\.+*?()|[]\x7b\x7d^$#&-~".toList.contains c

/-- Whether a backslash in front of a character makes it stand for itself. -/
def isEscapable (c : Char) : Bool :=
  isMeta c || (c.toNat < 128 && !c.isAlphanum && c != '<' && c != '>')

/-- The pattern that finds exactly a text: each character with a meaning is put behind a backslash. -/
def escape (s : String) : String :=
  String.ofList (s.toList.flatMap fun c => if isMeta c then ['\\', c] else [c])

/-- What an escape stands for. -/
inductive Escape where
  | literal (c : Char)
  | set (s : CharSet)
  | anchor (a : Anchor)

/-- Read a code point in hexadecimal, after the letter that announces it: in braces, or with a fixed
number of digits. -/
def readHex (digits : Nat) (cs : List Char) : Option (Char × List Char) := do
  let (ds, rest) ← match cs with
    | '\x7b' :: rest =>
      let ds := rest.takeWhile (· != '\x7d')
      match rest.drop ds.length with
      | _ :: rest => some (ds, rest)
      | [] => none
    | cs => if cs.length < digits then none else some (cs.take digits, cs.drop digits)
  if ds.isEmpty then none
  let n ← ds.foldlM (fun n c => (Text.hexValue? c).map (16 * n + ·)) 0
  if n.isValidChar then return (Char.ofNat n, rest) else none

/-- The words in braces that may follow the letter of a word boundary. -/
def boundaryWords : List (List Char × Anchor) :=
  [("\x7bstart\x7d".toList, .wordStart), ("\x7bend\x7d".toList, .wordEnd),
    ("\x7bstart-half\x7d".toList, .wordStartHalf), ("\x7bend-half\x7d".toList, .wordEndHalf)]

/-- Read an escape, after its backslash. The letters `p` and `P`, which would name a property of characters,
are refused like letters without a meaning. -/
def readEscape (cs : List Char) : Option (Escape × List Char) :=
  match cs with
  | [] => none
  | c :: rest =>
    match c with
    | 'd' => some (.set .digit, rest)
    | 'D' => some (.set (.complement .digit), rest)
    | 'w' => some (.set .word, rest)
    | 'W' => some (.set (.complement .word), rest)
    | 's' => some (.set .blank, rest)
    | 'S' => some (.set (.complement .blank), rest)
    | 'x' => (readHex 2 rest).map fun (c, rest) => (.literal c, rest)
    | 'u' => (readHex 4 rest).map fun (c, rest) => (.literal c, rest)
    | 'U' => (readHex 8 rest).map fun (c, rest) => (.literal c, rest)
    | 'a' => some (.literal (Char.ofNat 7), rest)
    | 'f' => some (.literal (Char.ofNat 12), rest)
    | 't' => some (.literal '\t', rest)
    | 'n' => some (.literal '\n', rest)
    | 'r' => some (.literal '\r', rest)
    | 'v' => some (.literal (Char.ofNat 11), rest)
    | 'A' => some (.anchor .textStart, rest)
    | 'z' => some (.anchor .textEnd, rest)
    | 'b' =>
      match boundaryWords.find? (·.1.isPrefixOf rest) with
      | some (word, a) => some (.anchor a, rest.drop word.length)
      | none => some (.anchor .wordBoundary, rest)
    | 'B' => some (.anchor .notWordBoundary, rest)
    | '<' => some (.anchor .wordStart, rest)
    | '>' => some (.anchor .wordEnd, rest)
    | c => if isEscapable c then some (.literal c, rest) else none

end MediaCatalogue.Pattern
