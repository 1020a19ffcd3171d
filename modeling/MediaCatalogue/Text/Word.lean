import MediaCatalogue.Text.WordTable
import MediaCatalogue.Text.Blank

/-!
# Words and digits

The classes of characters that a pattern can name: word characters and decimal digits of every script.
-/

set_option autoImplicit false

namespace MediaCatalogue.Text

/-- Whether a character is part of words: a letter, a mark, a digit or a connector such as the
underscore. -/
def isWordChar (c : Char) : Bool :=
  if c.toNat < 128 then c.isAlphanum || c = '_' else inRanges wordRanges c.toNat

/-- Whether a character is a decimal digit of some script. -/
def isDecimalDigit (c : Char) : Bool :=
  if c.toNat < 128 then c.isDigit else inRanges digitRanges c.toNat

end MediaCatalogue.Text
