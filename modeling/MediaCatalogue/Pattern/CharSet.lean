import MediaCatalogue.Text.Ranges
import MediaCatalogue.Text.Word

/-!
# Sets of characters

A set of characters, as a class in a pattern describes it. Whether a character is in the set is decided along
the description; the code points can also be listed as ranges.
-/

set_option autoImplicit false

namespace MediaCatalogue

/-- A set of characters. -/
inductive CharSet where
  | none
  | range (first last : Nat)
  | digit
  | word
  | blank
  | union (a b : CharSet)
  | inter (a b : CharSet)
  | complement (a : CharSet)
  | anyCase (a : CharSet)
deriving DecidableEq, Hashable, Inhabited

namespace CharSet

/-- The set of one character. -/
def single (c : Char) : CharSet :=
  .range c.toNat c.toNat

/-- The set of all code points. -/
def all : CharSet :=
  .range 0 0x10ffff

/-- The code points in some ranges. -/
def ofRanges (rs : List (Nat × Nat)) : CharSet :=
  rs.foldr (fun r s => .union (.range r.1 r.2) s) .none

/-- Whether a code point is in a set; a set in any case holds the case variants of its members. -/
def holds : CharSet → Nat → Bool
  | .none, _ => false
  | .range first last, n => first ≤ n && n ≤ last
  | .digit, n => Text.isDecimalDigit (Char.ofNat n)
  | .word, n => Text.isWordChar (Char.ofNat n)
  | .blank, n => Text.isBlank (Char.ofNat n)
  | .union a b, n => a.holds n || b.holds n
  | .inter a b, n => a.holds n && b.holds n
  | .complement a, n => !a.holds n
  | .anyCase a, n => (Text.caseVariants n).any a.holds

/-- The code points of a set, as ranges in normal form. -/
def ranges : CharSet → List (Nat × Nat)
  | .none => []
  | .range first last => [(first, last)]
  | .digit => Text.digitRanges
  | .word => Text.wordRanges
  | .blank => Text.blankRanges
  | .union a b => Text.normalRanges (a.ranges ++ b.ranges)
  | .inter a b => Text.commonRanges a.ranges b.ranges
  | .complement a => Text.outside a.ranges
  | .anyCase a => Text.withCaseVariants a.ranges

end CharSet
end MediaCatalogue
