import MediaCatalogue.Pattern.Shape

/-!
# How large a pattern is

A pattern may ask for a search that takes too much memory, and is then refused. What counts is the automaton
over bytes that finds it, once reading forward and once reading backward: each state takes some bytes, and
more for the arrows that it keeps in a list. Only states that read one of several bytes and states that fork
keep such a list, so arrows from the end of one part to the next cost something exactly where the part ends in
a fork.

The automaton of a class reads the UTF-8 forms of its characters. Forward, equal continuations are shared;
backward, equal beginnings are. A choice between words shares the bytes that they begin with.
-/

set_option autoImplicit false

namespace MediaCatalogue.Shape

/-- The direction in which a text is read. -/
inductive Direction where
  | forward
  | backward
deriving DecidableEq

/-- The bytes of a state. -/
def stateSize : Nat := 32

/-- The bytes of an arrow from a state that reads one of several bytes. -/
def readArrowSize : Nat := 8

/-- The bytes of an arrow from a state that forks. -/
def forkArrowSize : Nat := 4

/-! ## Classes -/

/-- A class as the byte sequences of its members. -/
abbrev Sequences := List (List (Nat × Nat))

/-- What may follow a first byte, for each range of first bytes; sequences with one first range stand
together. -/
def continuations : Sequences → List ((Nat × Nat) × Sequences)
  | [] => []
  | [] :: more => continuations more
  | (r :: rest) :: more =>
    match continuations more with
    | [] => [(r, [rest])]
    | (s, tails) :: others =>
      if r = s then (r, rest :: tails) :: others else (r, [rest]) :: (s, tails) :: others

/-- The sequences, what may follow their first bytes, what may follow those, and so on. -/
def residuals (fuel : Nat) (seqs : Sequences) : List Sequences :=
  match fuel with
  | 0 => []
  | fuel + 1 =>
    if seqs = [[]] then []
    else seqs :: (continuations seqs).flatMap fun next => residuals fuel next.2

/-- The number of members with which two lists both begin. -/
def sharedLength (a b : List (Nat × Nat)) : Nat :=
  match a, b with
  | x :: a, y :: b => if x = y then sharedLength a b + 1 else 0
  | _, _ => 0

/-- The number of ranges in ascending sequences when those that a sequence begins with like the one before are
not counted again. -/
def beginnings (previous : List (Nat × Nat)) : Sequences → Nat
  | [] => 0
  | s :: more => s.length - sharedLength previous s + beginnings s more

/-- The size of the automaton that reads one character of a class. Forward it shares what the byte
sequences end with, backward what they begin with. -/
def classSize (d : Direction) (ranges : List (Nat × Nat)) : Nat :=
  let seqs := Text.byteSequences ranges
  match d with
  | .forward =>
    let states := distinct (residuals 5 seqs)
    stateSize + states.foldr (fun s size => stateSize + readArrowSize * (continuations s).length + size) 0
  | .backward =>
    if ranges.all fun r => r.2 < 0x80 then 2 * stateSize + readArrowSize * ranges.length
    else (2 + beginnings [] seqs) * stateSize + forkArrowSize * seqs.length

/-! ## Words -/

/-- Cut words where one of them ends; several that end before any goes on count once. -/
def cutAtEnds (words : List (List Nat)) : List (List (List Nat)) :=
  let words := if words.head? = some [] then [] :: words.dropWhile (·.isEmpty) else words
  words.foldr (fun w cut =>
    if w.isEmpty then [] :: cut
    else
      match cut with
      | [] => [[w]]
      | now :: more => (w :: now) :: more) [[]]

/-- What follows each first byte of some words. -/
def branches (words : List (List Nat)) : List (List (List Nat)) :=
  (words.filterMap List.head?).eraseDups.map fun b =>
    (words.filter fun w => w.head? = some b).map (·.drop 1)

/-- The size of a choice between words, but for its end. -/
def wordsSize (fuel : Nat) (words : List (List Nat)) : Nat :=
  match fuel with
  | 0 => 0
  | fuel + 1 =>
    let parts := cutAtEnds words
    let full := parts.filter fun p => !p.isEmpty
    let sizes := full.map fun part =>
      let next := branches part
      let list := if next.length = 1 then 0 else readArrowSize * next.length
      let inner := next.filter fun tails => !tails.all (·.isEmpty)
      stateSize + list + (inner.map (wordsSize fuel)).sum
    stateSize + forkArrowSize * (full.length + parts.length - 1) + sizes.sum

/-- The bytes, if the shape is nothing else. -/
def word? : Shape → Option (List Nat)
  | .bytes bs => some bs
  | _ => none

/-! ## Shapes -/

/-- Whether a shape finds some text, and none that is empty. -/
def takesSome (s : Shape) : Bool :=
  s.minLength.any (0 < ·)

mutual

/-- Whether the automaton of a shape ends where one can go on or back. -/
def endsInFork (d : Direction) : Shape → Bool
  | .repeated ⟨0, none⟩ _ s => s.takesSome
  | .repeated ⟨_, none⟩ _ _ => true
  | .repeated ⟨least, some most⟩ _ s => least = most && s.endsInFork d
  | .group _ s => d = .backward && s.endsInFork d
  | .row ss => rowEndsInFork d ss
  | _ => false

/-- Whether the last shape of a row ends in a fork. -/
def rowEndsInFork (d : Direction) : List Shape → Bool
  | [] => false
  | [s] => s.endsInFork d
  | _ :: ss => rowEndsInFork d ss

end

/-- The bytes of the arrow that leads away from the end of a shape. -/
def link (d : Direction) (s : Shape) : Nat :=
  if s.endsInFork d then forkArrowSize else 0

/-- The size of a repetition, given the size of what is repeated and the arrow that leads away from it. -/
def repeatedSize (n : Count) (takesSome : Bool) (size link : Nat) : Nat :=
  match n.least, n.most with
  | 0, some 1 => 2 * stateSize + 2 * forkArrowSize + size + link
  | 0, none =>
    if takesSome then stateSize + forkArrowSize + size + link
    else 3 * stateSize + 4 * forkArrowSize + size + link
  | least, none => stateSize + forkArrowSize + least * (size + link)
  | least, some most =>
    if least = most then least * size + (least - 1) * link
    else
      (if least = 0 then stateSize else least * size) + stateSize +
        (most - least) * (stateSize + 2 * forkArrowSize + size) + most * link

mutual

/-- The size of the automaton of a shape; a group is remembered only forward. -/
def size (d : Direction) : Shape → Nat
  | .empty => stateSize
  | .bytes bs => bs.length * stateSize
  | .chars ranges => classSize d ranges
  | .anchor _ => stateSize
  | .repeated n _ s => repeatedSize n s.takesSome (s.size d) (s.link d)
  | .group _ s =>
    match d with
    | .forward => 2 * stateSize + s.size d + s.link d
    | .backward => s.size d
  | .row ss => rowSize d ss
  | .choice ss =>
    match ss.mapM word? with
    | some words => stateSize + wordsSize ((words.map List.length).foldl max 0 + 1) words
    | none => 2 * stateSize + choiceSize d ss

/-- The size of shapes in a row, with the arrows between them. -/
def rowSize (d : Direction) : List Shape → Nat
  | [] => 0
  | [s] => s.size d
  | s :: ss => s.size d + s.link d + rowSize d ss

/-- The size of shapes of which one is chosen, with the arrows to and from each. -/
def choiceSize (d : Direction) : List Shape → Nat
  | [] => 0
  | s :: ss => forkArrowSize + s.size d + s.link d + choiceSize d ss

end

/-- The size of what is in front of a shape: a loop over any bytes, unless the shape begins at the end of the
text. -/
def startSize (anchored : Bool) : Nat :=
  if anchored then stateSize else 3 * stateSize + readArrowSize + 2 * forkArrowSize

/-- The size of the whole automaton that reads forward. -/
def forwardSize (s : Shape) : Nat :=
  startSize (s.beginsAt .textStart) + s.size .forward + s.link .forward + 3 * stateSize

/-- The size of the whole automaton that reads backward. -/
def backwardSize (s : Shape) : Nat :=
  let s := s.reversed
  startSize (s.beginsAt .textEnd) + s.size .backward + s.link .backward + stateSize

/-- The most bytes that an automaton may take. -/
def sizeLimit : Nat := 10 * 1024 * 1024

/-- Whether the automata of a shape are not too large. -/
def fits (s : Shape) : Bool :=
  s.forwardSize ≤ sizeLimit && s.backwardSize ≤ sizeLimit

end MediaCatalogue.Shape
