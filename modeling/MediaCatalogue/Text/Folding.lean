import MediaCatalogue.Text.FoldTable

/-!
# Matching without regard to case

Two characters are the same letter up to case when simple case folding takes them to one code point.
The case variants of a character are all characters that fold as it does.
-/

set_option autoImplicit false

namespace MediaCatalogue.Text

/-- The code point that stands for all case variants of a code point. -/
def fold (n : Nat) : Nat :=
  mapBySpans foldSpans n

/-- The code points that fold as `n` does, with the folded form first. -/
def caseVariants (n : Nat) : List Nat :=
  let folded := fold n
  folded :: foldSpans.filterMap (·.preimage? folded)

end MediaCatalogue.Text
