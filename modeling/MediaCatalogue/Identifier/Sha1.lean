/-!
# The SHA-1 digest

The message is followed by a one bit, zeros, and its length in bits, so that it fills blocks of sixteen
words of 32 bits. Each block is stretched to eighty words and mixed into a state of five words in eighty
rounds.
-/

set_option autoImplicit false

namespace MediaCatalogue.Sha1

/-- The five words of a digest in the making. -/
structure State where
  a : UInt32
  b : UInt32
  c : UInt32
  d : UInt32
  e : UInt32

/-- The state before the first block. -/
def start : State :=
  ⟨0x67452301, 0xefcdab89, 0x98badcfe, 0x10325476, 0xc3d2e1f0⟩

/-- Turn the bits of a word to the left, by one to thirty-one places. -/
def rotate (x : UInt32) (places : UInt32) : UInt32 :=
  (x <<< places) ||| (x >>> (32 - places))

/-- The big-endian bytes of a number, in a given count. -/
def bytesOf : Nat → Nat → List UInt8
  | 0, _ => []
  | count + 1, n => bytesOf count (n / 256) ++ [UInt8.ofNat (n % 256)]

/-- Fill a message up to whole blocks of sixty-four bytes: a bit, zeros, and the length of the message
in bits. -/
def pad (message : List UInt8) : List UInt8 :=
  let length := message.length
  message ++ 0x80 :: List.replicate ((119 - length % 64) % 64) 0 ++ bytesOf 8 (8 * length)

/-- The big-endian words of bytes; what does not fill a word is dropped. -/
def words : List UInt8 → List UInt32
  | a :: b :: c :: d :: rest =>
    (a.toUInt32 <<< 24 ||| b.toUInt32 <<< 16 ||| c.toUInt32 <<< 8 ||| d.toUInt32) :: words rest
  | _ => []

/-- Add `count` words to a block, which is held in reverse. -/
def stretch : Nat → List UInt32 → List UInt32
  | 0, reversed => reversed
  | count + 1, reversed =>
    let word (i : Nat) : UInt32 := reversed.getD (i - 1) 0
    stretch count (rotate (word 3 ^^^ word 8 ^^^ word 14 ^^^ word 16) 1 :: reversed)

/-- One round: mix the word of a given place into the state. -/
def round (s : State) (place : Nat) (word : UInt32) : State :=
  let (f, k) : UInt32 × UInt32 :=
    if place < 20 then ((s.b &&& s.c) ||| (~~~s.b &&& s.d), 0x5a827999)
    else if place < 40 then (s.b ^^^ s.c ^^^ s.d, 0x6ed9eba1)
    else if place < 60 then ((s.b &&& s.c) ||| (s.b &&& s.d) ||| (s.c &&& s.d), 0x8f1bbcdc)
    else (s.b ^^^ s.c ^^^ s.d, 0xca62c1d6)
  ⟨rotate s.a 5 + f + s.e + k + word, s.a, rotate s.b 30, s.c, s.d⟩

/-- Mix a block of sixteen words into the state. -/
def mixBlock (s : State) (block : List UInt32) : State :=
  let stretched := (stretch 64 block.reverse).reverse
  let mixed := (stretched.foldl (fun (r : State × Nat) w => (round r.1 r.2 w, r.2 + 1)) (s, 0)).1
  ⟨s.a + mixed.a, s.b + mixed.b, s.c + mixed.c, s.d + mixed.d, s.e + mixed.e⟩

/-- Mix a number of blocks into the state, one after another. -/
def mixBlocks : Nat → State → List UInt32 → State
  | 0, s, _ => s
  | count + 1, s, ws => mixBlocks count (mixBlock s (ws.take 16)) (ws.drop 16)

/-- The twenty bytes of the digest of a message. -/
def digest (message : List UInt8) : List UInt8 :=
  let ws := words (pad message)
  let s := mixBlocks (ws.length / 16) start ws
  [s.a, s.b, s.c, s.d, s.e].flatMap fun w => bytesOf 4 w.toNat

end MediaCatalogue.Sha1
