import MediaCatalogue.Pattern.Tree
import MediaCatalogue.Text.Utf8

/-!
# The simplified shape of a pattern

Before a pattern is measured it is brought to a simpler shape that finds the same. Characters become the bytes
of their UTF-8 form, rows and choices are flat, neighbouring bytes are joined, a choice between characters is
one class, and what all rows of a choice begin with is taken out in front of it. No row or choice has fewer
than two parts.
-/

set_option autoImplicit false

namespace MediaCatalogue

/-- A pattern in simplified shape. The ranges of a class are in normal form and hold more or less than one code
point. -/
inductive Shape where
  | empty
  | bytes (bs : List Nat)
  | chars (ranges : List (Nat × Nat))
  | anchor (a : Anchor)
  | repeated (n : Count) (greedy : Bool) (s : Shape)
  | group (number : Nat) (s : Shape)
  | row (ss : List Shape)
  | choice (ss : List Shape)

namespace Shape

instance : Inhabited Shape := ⟨.empty⟩

/-! ## Comparison -/

mutual

/-- Whether two shapes are the same. -/
def equals : Shape → Shape → Bool
  | .empty, .empty => true
  | .bytes a, .bytes b => a == b
  | .chars a, .chars b => a == b
  | .anchor a, .anchor b => a == b
  | .repeated m g a, .repeated n h b => m == n && g == h && a.equals b
  | .group m a, .group n b => m == n && a.equals b
  | .row as, .row bs => allEqual as bs
  | .choice as, .choice bs => allEqual as bs
  | _, _ => false

/-- Whether two lists hold the same shapes. -/
def allEqual : List Shape → List Shape → Bool
  | [], [] => true
  | a :: as, b :: bs => a.equals b && allEqual as bs
  | _, _ => false

end

/-- How many shapes at the front of two lists are the same. -/
def commonLength : List Shape → List Shape → Nat
  | a :: as, b :: bs => if a.equals b then commonLength as bs + 1 else 0
  | _, _ => 0

/-! ## Lengths -/

/-- The number of bytes of a code point. -/
def byteLength (n : Nat) : Nat :=
  (Text.utf8Bytes n).length

/-- The larger of two lengths, if both are known. -/
def longer (a b : Option Nat) : Option Nat :=
  a.bind fun a => b.map (max a)

/-- The smaller of two lengths, if both are known. -/
def shorter (a b : Option Nat) : Option Nat :=
  a.bind fun a => b.map (min a)

/-- The sum of two lengths, if both are known. -/
def together (a b : Option Nat) : Option Nat :=
  a.bind fun a => b.map (a + ·)

mutual

/-- The number of bytes of the shortest text that the shape finds; none if there is no such text. -/
def minLength : Shape → Option Nat
  | .empty => some 0
  | .bytes bs => some bs.length
  | .chars rs => rs.head?.map fun r => byteLength r.1
  | .anchor _ => some 0
  | .repeated n _ s => s.minLength.map (n.least * ·)
  | .group _ s => s.minLength
  | .row ss => minLengthOfRow ss
  | .choice ss => minLengthOfChoice ss

/-- The shortest length of shapes in a row. -/
def minLengthOfRow : List Shape → Option Nat
  | [] => some 0
  | s :: ss => together s.minLength (minLengthOfRow ss)

/-- The shortest length of shapes of which one is chosen. -/
def minLengthOfChoice : List Shape → Option Nat
  | [] => none
  | [s] => s.minLength
  | s :: ss => shorter s.minLength (minLengthOfChoice ss)

end

mutual

/-- The number of bytes of the longest text that the shape finds; none if there is no such text, or no longest. -/
def maxLength : Shape → Option Nat
  | .empty => some 0
  | .bytes bs => some bs.length
  | .chars rs => rs.getLast?.map fun r => byteLength r.2
  | .anchor _ => some 0
  | .repeated n _ s => n.most.bind fun most => s.maxLength.map (most * ·)
  | .group _ s => s.maxLength
  | .row ss => maxLengthOfRow ss
  | .choice ss => maxLengthOfChoice ss

/-- The longest length of shapes in a row. -/
def maxLengthOfRow : List Shape → Option Nat
  | [] => some 0
  | s :: ss => together s.maxLength (maxLengthOfRow ss)

/-- The longest length of shapes of which one is chosen. -/
def maxLengthOfChoice : List Shape → Option Nat
  | [] => none
  | [s] => s.maxLength
  | s :: ss => longer s.maxLength (maxLengthOfChoice ss)

end

/-! ## Building shapes -/

/-- The class with some ranges in normal form; a class of one character is that character. -/
def ofRanges (rs : List (Nat × Nat)) : Shape :=
  match rs with
  | [(a, b)] => if a = b then .bytes (Text.utf8Bytes a) else .chars rs
  | rs => .chars rs

/-- A repetition. What finds the empty text only is worth no more than one copy, and one copy is no
repetition. -/
def ofRepeated (n : Count) (greedy : Bool) (s : Shape) : Shape :=
  let n := if s.maxLength = some 0 then ⟨min n.least 1, some (min (n.most.getD 1) 1)⟩ else n
  if n = ⟨0, some 0⟩ then .empty else if n = ⟨1, some 1⟩ then s else .repeated n greedy s

/-- Put a shape in front of a flat row. -/
def before (s : Shape) (row : List Shape) : List Shape :=
  match s, row with
  | .empty, row => row
  | .bytes a, .bytes b :: more => .bytes (a ++ b) :: more
  | s, row => s :: row

/-- A row of shapes: rows in it are taken apart, bytes next to each other are joined, and what finds the
empty text only is left out. -/
def ofRow (ss : List Shape) : Shape :=
  let flat := ss.flatMap fun s => match s with
    | .row ts => ts
    | s => [s]
  match flat.foldr before [] with
  | [] => .empty
  | [s] => s
  | ss => .row ss

/-- The code point that some bytes encode, if they encode exactly one. -/
def codePoint? (bs : List Nat) : Option Nat :=
  match bs with
  | [a] => some a
  | [a, b] => if 0xc0 ≤ a then some ((a - 0xc0) * 64 + (b - 0x80)) else none
  | [a, b, c] => if 0xe0 ≤ a then some ((a - 0xe0) * 4096 + (b - 0x80) * 64 + (c - 0x80)) else none
  | [a, b, c, d] =>
    if 0xf0 ≤ a then
      some ((a - 0xf0) * 262144 + (b - 0x80) * 4096 + (c - 0x80) * 64 + (d - 0x80))
    else none
  | _ => none

/-- The single character that a shape finds. -/
def character? : Shape → Option Nat
  | .bytes bs => codePoint? bs
  | _ => none

/-- The ranges of a class. -/
def ranges? : Shape → Option (List (Nat × Nat))
  | .chars rs => some rs
  | _ => none

/-- The parts of a row. -/
def row? : Shape → Option (List Shape)
  | .row ss => some ss
  | _ => none

/-- The shapes that all rows begin with. -/
def commonStart : List (List Shape) → List Shape
  | [] => []
  | r :: rs => rs.foldl (fun start row => start.take (commonLength start row)) r

mutual

/-- A measure of a shape, by the number of its parts. -/
def weight : Shape → Nat
  | .repeated _ _ s => s.weight + 1
  | .group _ s => s.weight + 1
  | .row ss => weightOfAll ss + 1
  | .choice ss => weightOfAll ss + 1
  | _ => 1

/-- The weights of some shapes together. -/
def weightOfAll : List Shape → Nat
  | [] => 0
  | s :: ss => s.weight + weightOfAll ss

end

/-- A choice with fuel for taking out what rows begin with, again in what is left of them. -/
def choiceOf (fuel : Nat) (ss : List Shape) : Shape :=
  let flat := ss.flatMap fun s => match s with
    | .choice ts => ts
    | s => [s]
  match flat with
  | [] => .chars []
  | [s] => s
  | flat =>
    match flat.mapM character?, flat.mapM ranges?, flat.mapM row?, fuel with
    | some cs, _, _, _ => ofRanges (Text.normalRanges (cs.map fun c => (c, c)))
    | none, some rss, _, _ => ofRanges (Text.normalRanges rss.flatten)
    | none, none, some rows, fuel + 1 =>
      let start := commonStart rows
      if start.isEmpty then .choice flat
      else ofRow (start ++ [choiceOf fuel (rows.map fun row => ofRow (row.drop start.length))])
    | none, none, _, _ => .choice flat

/-- Shapes of which one is chosen. -/
def ofChoice (ss : List Shape) : Shape :=
  choiceOf (weightOfAll ss) ss

end Shape

namespace Tree

mutual

/-- The simplified shape of a pattern. -/
def shape : Tree → Shape
  | .empty => .empty
  | .literal c anyCase => Shape.ofRanges (literalSet c anyCase).ranges
  | .chars set _ => Shape.ofRanges set.ranges
  | .anchor a => .anchor a
  | .repeated n greedy t => Shape.ofRepeated n greedy t.shape
  | .group none t => t.shape
  | .group (some number) t => .group number t.shape
  | .row ts => Shape.ofRow (shapes ts)
  | .choice ts => Shape.ofChoice (shapes ts)

/-- The simplified shapes of some patterns. -/
def shapes : List Tree → List Shape
  | [] => []
  | t :: ts => t.shape :: shapes ts

end

end Tree

namespace Shape

/-! ## Reading direction -/

mutual

/-- The shape that finds the same texts read backwards. -/
def reversed : Shape → Shape
  | .bytes bs => .bytes bs.reverse
  | .repeated n greedy s => .repeated n greedy s.reversed
  | .group number s => .group number s.reversed
  | .row ss => .row (allReversed ss).reverse
  | .choice ss => .choice (allReversed ss)
  | s => s

/-- Some shapes, each reversed. -/
def allReversed : List Shape → List Shape
  | [] => []
  | s :: ss => s.reversed :: allReversed ss

end

mutual

/-- Whether whatever the shape finds begins where the test of position holds, going by the tests that stand at
its front. -/
def beginsAt (a : Anchor) : Shape → Bool
  | .anchor b => a == b
  | .repeated n _ s => n.least != 0 && s.beginsAt a
  | .group _ s => s.beginsAt a
  | .row ss => rowBeginsAt a ss
  | .choice ss => choiceBeginsAt a ss
  | _ => false

/-- The same for a row: the test may follow shapes that find the empty text only. -/
def rowBeginsAt (a : Anchor) : List Shape → Bool
  | [] => false
  | s :: ss => s.beginsAt a || (s.maxLength = some 0 && rowBeginsAt a ss)

/-- The same for a choice: the test has to be at the front of every shape. -/
def choiceBeginsAt (a : Anchor) : List Shape → Bool
  | [] => true
  | s :: ss => s.beginsAt a && choiceBeginsAt a ss

end

end Shape
end MediaCatalogue
