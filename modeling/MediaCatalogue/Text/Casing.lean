import MediaCatalogue.Text.LowerTable
import MediaCatalogue.Text.UpperTable
import MediaCatalogue.Text.CasedTable

/-!
# Lower and upper case of texts

Each character is replaced by its full case mapping, which may be longer than one character. A capital
sigma becomes the final form `ς` where it ends a word: a cased character stands before it and none
after it, when the characters that casing ignores are passed over.

The ASCII functions touch no other letter.
-/

set_option autoImplicit false

namespace MediaCatalogue.Text

/-- The lower-case form of a character, by itself. -/
def lowerChar (c : Char) : List Char :=
  if c.toNat < 128 then [c.toLower]
  else if c.toNat = 0x130 then ['i', Char.ofNat 0x307]
  else [Char.ofNat (mapBySpans lowerSpans c.toNat)]

/-- The upper-case form of a character, by itself. -/
def upperChar (c : Char) : List Char :=
  if c.toNat < 128 then [c.toUpper]
  else match upperExpansions.lookup c.toNat with
    | some expansion => expansion.map Char.ofNat
    | none => [Char.ofNat (mapBySpans upperSpans c.toNat)]

/-- Whether a character is a letter that has case. -/
def isCased (c : Char) : Bool :=
  inRanges casedRanges c.toNat

/-- Whether a character is passed over when casing looks at the neighbours of a letter. -/
def isCaseIgnorable (c : Char) : Bool :=
  inRanges caseIgnorableRanges c.toNat

/-- Whether the first character that casing does not ignore has case. -/
def startsCased (cs : List Char) : Bool :=
  match cs.dropWhile isCaseIgnorable with
  | c :: _ => isCased c
  | [] => false

/-- Lower case of the characters `cs` that follow `before`, which is held in reverse. -/
def lowerFrom (before : List Char) : List Char → List Char
  | [] => []
  | c :: rest =>
    let here :=
      if c = 'Σ' then
        [if startsCased before && !startsCased rest then 'ς' else 'σ']
      else lowerChar c
    here ++ lowerFrom (c :: before) rest

/-- The text in lower case. -/
def lower (s : String) : String :=
  String.ofList (lowerFrom [] s.toList)

/-- The text in upper case. -/
def upper (s : String) : String :=
  String.ofList (s.toList.flatMap upperChar)

/-- Whether two texts are equal when the case of ASCII letters is ignored. -/
def equalIgnoringAsciiCase (a b : String) : Bool :=
  a.toList.map Char.toLower == b.toList.map Char.toLower

end MediaCatalogue.Text
