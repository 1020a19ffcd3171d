/-!
# Ranges of code points as ranges of bytes

In UTF-8 a code point takes one to four bytes. A range of code points comes apart into pieces of which each
is given by one range for every byte: the bytes of its first and of its last member at each place. The pieces
ascend.
-/

set_option autoImplicit false

namespace MediaCatalogue.Text

/-- The bytes of a code point. -/
def utf8Bytes (n : Nat) : List Nat :=
  if n < 0x80 then [n]
  else if n < 0x800 then [0xc0 + n / 64, 0x80 + n % 64]
  else if n < 0x10000 then [0xe0 + n / 4096, 0x80 + n / 64 % 64, 0x80 + n % 64]
  else [0xf0 + n / 262144, 0x80 + n / 4096 % 64, 0x80 + n / 64 % 64, 0x80 + n % 64]

/-- Where the code points that differ in their last bytes only, blocks of `size`, force a cut between `first`
and `last`: the last code point of the first part. -/
def blockCut? (first last size : Nat) : Option Nat :=
  if first / size = last / size then none
  else if first % size ≠ 0 then some (first / size * size + size - 1)
  else if last % size ≠ size - 1 then some (last / size * size - 1)
  else none

/-- Where a range is cut, if it has to be: the last code point of the first part. Code points of unequal
length are kept apart first, then incomplete blocks. -/
def cut? (first last : Nat) : Option Nat :=
  match [0x7f, 0x7ff, 0xffff].find? fun longest => first ≤ longest && longest < last with
  | some longest => some longest
  | none =>
    if last ≤ 0x7f then none
    else (blockCut? first last 64).or ((blockCut? first last 4096).or (blockCut? first last 262144))

/-- The pieces of a range without surrogates. -/
def byteRanges (first last : Nat) : List (List (Nat × Nat)) :=
  match cut? first last with
  | none => [(utf8Bytes first).zip (utf8Bytes last)]
  | some k =>
    if _h : first ≤ k ∧ k < last then byteRanges first k ++ byteRanges (k + 1) last else []
termination_by last - first

/-- The parts of a range that are not surrogates. -/
def withoutSurrogates (r : Nat × Nat) : List (Nat × Nat) :=
  if r.1 < 0xe000 && 0xd7ff < r.2 then
    [(r.1, 0xd7ff), (0xe000, r.2)].filter fun p => p.1 ≤ p.2
  else [r]

/-- The pieces of the ranges of a set. -/
def byteSequences (rs : List (Nat × Nat)) : List (List (Nat × Nat)) :=
  (rs.flatMap withoutSurrogates).flatMap fun r => byteRanges r.1 r.2

end MediaCatalogue.Text
