import MediaCatalogue.Text.CodePoints
import MediaCatalogue.Text.Folding

/-!
# Sets of code points as ranges

A set of code points is written as closed ranges. In the normal form the ranges ascend and none touches the
next, so that a set has one normal form. Union is concatenation brought to the normal form; the other
operations come down to the complement.
-/

set_option autoImplicit false

namespace MediaCatalogue.Text

/-- The last of all code points. -/
def lastCodePoint : Nat := 0x10ffff

/-- Add a range that begins no earlier than those before it, which are in descending order. -/
def addRange (done : List (Nat × Nat)) (r : Nat × Nat) : List (Nat × Nat) :=
  match done with
  | [] => [r]
  | last :: more => if r.1 ≤ last.2 + 1 then (last.1, max last.2 r.2) :: more else r :: last :: more

/-- Ranges in any order brought to the normal form. -/
def normalRanges (rs : List (Nat × Nat)) : List (Nat × Nat) :=
  ((rs.mergeSort fun a b => a.1 ≤ b.1).foldl addRange []).reverse

/-- The code points from `first` on that ranges in normal form leave out. -/
def gaps (first : Nat) : List (Nat × Nat) → List (Nat × Nat)
  | [] => if first ≤ lastCodePoint then [(first, lastCodePoint)] else []
  | r :: rs => if first < r.1 then (first, r.1 - 1) :: gaps (r.2 + 1) rs else gaps (r.2 + 1) rs

/-- The code points outside ranges in normal form. -/
def outside (rs : List (Nat × Nat)) : List (Nat × Nat) :=
  gaps 0 rs

/-- The code points in both of two sets in normal form. -/
def commonRanges (rs ss : List (Nat × Nat)) : List (Nat × Nat) :=
  outside (normalRanges (outside rs ++ outside ss))

/-- The code points that simple case folding changes, each with its folded form. -/
def foldings : List (Nat × Nat) :=
  foldSpans.flatMap fun s =>
    (List.range ((s.last - s.first) / s.stride + 1)).map fun k =>
      let c := s.first + k * s.stride
      (c, ((c : Int) + s.shift).toNat)

/-- The set with all case variants of its members, in normal form. -/
def withCaseVariants (rs : List (Nat × Nat)) : List (Nat × Nat) :=
  let folded := (foldings.filter fun f => inRanges rs f.1 || inRanges rs f.2).map Prod.snd
  normalRanges (rs ++ folded.eraseDups.flatMap fun t => (caseVariants t).map fun c => (c, c))

end MediaCatalogue.Text
