/-!
# Tables over code points

A property of characters is a list of closed ranges of code points. A mapping of characters is a list
of spans, each of which shifts every `stride`-th code point between its ends by one amount.
-/

set_option autoImplicit false

namespace MediaCatalogue.Text

/-- Whether a code point lies in one of the closed ranges. -/
def inRanges (ranges : List (Nat × Nat)) (n : Nat) : Bool :=
  ranges.any fun r => r.1 ≤ n && n ≤ r.2

/-- The code points `first`, `first + stride`, … up to `last`, each mapped to itself plus `shift`. -/
structure Span where
  first : Nat
  last : Nat
  stride : Nat
  shift : Int

namespace Span

/-- Whether the span maps the code point. -/
def covers (s : Span) (n : Nat) : Bool :=
  s.first ≤ n && n ≤ s.last && (n - s.first) % s.stride == 0

/-- The code points that the span maps to `n`: at most one. -/
def preimage? (s : Span) (n : Nat) : Option Nat :=
  let m := (n : Int) - s.shift
  if 0 ≤ m ∧ s.covers m.toNat then some m.toNat else none

end Span

/-- Map a code point by the first span that covers it; the others stay as they are. -/
def mapBySpans (spans : List Span) (n : Nat) : Nat :=
  match spans.find? (·.covers n) with
  | some s => ((n : Int) + s.shift).toNat
  | none => n

end MediaCatalogue.Text
