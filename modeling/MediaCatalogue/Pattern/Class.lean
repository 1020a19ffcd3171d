import MediaCatalogue.Pattern.Escape
import MediaCatalogue.Pattern.Options

/-!
# Classes in brackets

A class lists characters, ranges, escapes and further classes, and joins such lists by three operators. Each
list is an operand: its set, and how deep its brackets are nested. An operand of several items counts as one
more level than the deepest of them, as does an operator over its two operands.
-/

set_option autoImplicit false

namespace MediaCatalogue.Pattern

/-- The ranges of the classes that are named between colons. -/
def namedRanges : List (String × List (Nat × Nat)) :=
  [("alnum", [(48, 57), (65, 90), (97, 122)]), ("alpha", [(65, 90), (97, 122)]),
    ("ascii", [(0, 127)]), ("blank", [(9, 9), (32, 32)]), ("cntrl", [(0, 31), (127, 127)]),
    ("digit", [(48, 57)]), ("graph", [(33, 126)]), ("lower", [(97, 122)]), ("print", [(32, 126)]),
    ("punct", [(33, 47), (58, 64), (91, 96), (123, 126)]), ("space", [(9, 13), (32, 32)]),
    ("upper", [(65, 90)]), ("word", [(48, 57), (65, 90), (95, 95), (97, 122)]),
    ("xdigit", [(48, 57), (65, 70), (97, 102)])]

/-- The set in the letter case that is asked for. -/
def foldSet (o : Options) (s : CharSet) : CharSet :=
  if o.anyCase then .anyCase s else s

/-- A class with its options and its negation. Letter case comes first: what is left out is left out in every
case. -/
def closeClass (o : Options) (negated : Bool) (s : CharSet) : CharSet :=
  if negated then .complement (foldSet o s) else foldSet o s

/-- Read the name of a class between colons and brackets, after the opening bracket. -/
def readNamedClass (o : Options) (cs : List Char) : Option (CharSet × List Char) :=
  match cs with
  | ':' :: rest =>
    let (negated, rest) := match rest with
      | '^' :: r => (true, r)
      | r => (false, r)
    let name := rest.takeWhile (· != ':')
    match namedRanges.lookup (String.ofList name), rest.drop name.length with
    | some rs, ':' :: ']' :: rest => some (closeClass o negated (CharSet.ofRanges rs), rest)
    | _, _ => none
  | _ => none

/-- Read one character or escape in a class: a character by itself, or a set. -/
def readClassAtom (cs : List Char) : Option ((Char ⊕ CharSet) × List Char) :=
  match cs with
  | '\\' :: rest =>
    match readEscape rest with
    | some (.literal c, rest) => some (.inl c, rest)
    | some (.set s, rest) => some (.inr s, rest)
    | _ => none
  | c :: rest => some (.inl c, rest)
  | [] => none

/-- Read a character, a range or an escape in a class. -/
def readClassItem (o : Options) (cs : List Char) : Option (CharSet × List Char) := do
  let (first, rest) ← readClassAtom cs
  let alone : CharSet := match first with
    | .inl c => .single c
    | .inr s => s
  match skipFree o rest with
  | '-' :: rest =>
    match skipFree o rest with
    | ']' :: _ => return (alone, '-' :: rest)
    | '-' :: _ => return (alone, '-' :: rest)
    | [] => none
    | rest =>
      let (last, rest) ← readClassAtom rest
      match first, last with
      | .inl a, .inl b => if a.toNat ≤ b.toNat then return (.range a.toNat b.toNat, rest) else none
      | _, _ => none
  | rest => return (alone, rest)

/-- The items of a class up to an operator or to its end: their set, their number, and how deep the deepest
of them is nested. -/
structure Operand where
  set : CharSet := .none
  items : Nat := 0
  deepest : Nat := 0

/-- Add an item. -/
def Operand.add (p : Operand) (s : CharSet) (nesting : Nat) : Operand :=
  ⟨.union p.set s, p.items + 1, max p.deepest nesting⟩

/-- How deep an operand is nested. -/
def Operand.nesting (p : Operand) : Nat :=
  if p.items ≤ 1 then p.deepest else p.deepest + 1

/-- The way in which the part of a class after an operator is joined to what is before it. -/
inductive Join where
  | both
  | without
  | either

/-- What two sets are together, joined in this way. -/
def Join.apply (j : Join) (a b : CharSet) : CharSet :=
  match j with
  | .both => .inter a b
  | .without => .inter a (.complement b)
  | .either => .union (.inter a (.complement b)) (.inter b (.complement a))

/-- What a class holds up to here: what stands before the last operator, and the operand after it. -/
structure Brackets where
  negated : Bool
  joined : Option (Join × CharSet × Nat) := none
  now : Operand := {}

/-- The set up to here, and how deep it is nested. The sets that an operator joins are taken in the letter
case that is asked for. -/
def Brackets.all (o : Options) (b : Brackets) : CharSet × Nat :=
  match b.joined with
  | none => (b.now.set, b.now.nesting)
  | some (j, before, nesting) =>
    (j.apply (foldSet o before) (foldSet o b.now.set), max nesting b.now.nesting + 1)

/-- Add an item to the operand at hand. -/
def Brackets.add (b : Brackets) (s : CharSet) (nesting : Nat) : Brackets :=
  { b with now := b.now.add s nesting }

/-- Begin the operand after an operator. -/
def Brackets.join (o : Options) (b : Brackets) (j : Join) : Brackets :=
  { b with joined := some (j, b.all o), now := {} }

/-- The class as a whole. -/
def Brackets.close (o : Options) (b : Brackets) : CharSet × Nat :=
  let (s, nesting) := b.all o
  (closeClass o b.negated s, nesting + 1)

/-- Read the dashes at the front of a class, which stand for themselves. -/
def readDashes (fuel : Nat) (o : Options) (b : Brackets) (cs : List Char) : Brackets × List Char :=
  match fuel, cs with
  | fuel + 1, '-' :: rest => readDashes fuel o (b.add (.single '-') 0) (skipFree o rest)
  | _, cs => (b, cs)

/-- Read what opens a class, after its bracket: its negation, and dashes or a bracket at the front, which
stand for themselves. -/
def readClassOpening (o : Options) (cs : List Char) : Brackets × List Char :=
  let (negated, cs) := match skipFree o cs with
    | '^' :: r => (true, skipFree o r)
    | r => (false, r)
  match readDashes cs.length o ⟨negated, none, {}⟩ cs with
  | (b, ']' :: rest) => if b.now.items = 0 then (b.add (.single ']') 0, rest) else (b, ']' :: rest)
  | (b, rest) => (b, rest)

/-- Read the rest of a class: its set and how deep it is nested. -/
def readClassRest (fuel : Nat) (o : Options) (b : Brackets) (cs : List Char) :
    Option ((CharSet × Nat) × List Char) :=
  match fuel with
  | 0 => none
  | fuel + 1 =>
    match skipFree o cs with
    | [] => none
    | ']' :: rest => some (b.close o, rest)
    | '&' :: '&' :: rest => readClassRest fuel o (b.join o .both) rest
    | '-' :: '-' :: rest => readClassRest fuel o (b.join o .without) rest
    | '~' :: '~' :: rest => readClassRest fuel o (b.join o .either) rest
    | '[' :: rest =>
      match readNamedClass o rest with
      | some (s, rest) => readClassRest fuel o (b.add s 0) rest
      | none =>
        let (inner, rest) := readClassOpening o rest
        match readClassRest fuel o inner rest with
        | some ((s, nesting), rest) => readClassRest fuel o (b.add s nesting) rest
        | none => none
    | rest =>
      match readClassItem o rest with
      | some (s, rest) => readClassRest fuel o (b.add s 0) rest
      | none => none

/-- Read a class after its opening bracket. -/
def readClass (o : Options) (cs : List Char) : Option ((CharSet × Nat) × List Char) :=
  let (b, rest) := readClassOpening o cs
  readClassRest (cs.length + 1) o b rest

end MediaCatalogue.Pattern
