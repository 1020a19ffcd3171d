import MediaCatalogue.Text.CodePoints

/-!
# Blank characters

The characters that Unicode calls white space, and the text that is left when they are taken off both
ends of a text.
-/

set_option autoImplicit false

namespace MediaCatalogue.Text

/-- The white space characters. -/
def blankRanges : List (Nat × Nat) :=
  [(9, 13), (32, 32), (133, 133), (160, 160), (5760, 5760), (8192, 8202), (8232, 8233),
    (8239, 8239), (8287, 8287), (12288, 12288)]

/-- Whether a character is white space. -/
def isBlank (c : Char) : Bool :=
  inRanges blankRanges c.toNat

/-- Take off the characters at the end of which the test holds. -/
def dropEndWhile (p : Char → Bool) (cs : List Char) : List Char :=
  (cs.reverse.dropWhile p).reverse

/-- The text without the white space at its two ends. -/
def trimBlank (s : String) : String :=
  String.ofList (dropEndWhile isBlank (s.toList.dropWhile isBlank))

end MediaCatalogue.Text
