import MediaCatalogue.Pattern.Class
import MediaCatalogue.Pattern.Tree

/-!
# Reading patterns

The text of a pattern is read by descent: alternatives separated by bars, each a row of repeated atoms. What
a finite search cannot do (references back and looking around) is refused.

Two forms are not read although they could be searched for. A class cannot be named by a property of
characters (`\p{Greek}`, `\pL` and their negations), since the tables of these properties are not part of
the library. And patterns are about characters throughout: the option `u`, with which a pattern could be
made to run over single bytes, cannot be turned off (`(?-u:...)`). Such a pattern is refused like a text
that is no pattern.

Each reader takes fuel that the length of the text provides; none of them reads a character twice.
-/

set_option autoImplicit false

namespace MediaCatalogue.Pattern

/-! ## Repetitions -/

/-- Read a number in a count, with white space around it. -/
def readCountNumber (cs : List Char) : Option (Nat × List Char) :=
  let cs := cs.dropWhile Text.isBlank
  let (ds, rest) := cs.span Char.isDigit
  if ds.isEmpty || 4294967295 < Text.digitsValue ds then none
  else some (Text.digitsValue ds, rest.dropWhile Text.isBlank)

/-- Read a count after its opening brace. -/
def readCount (cs : List Char) : Option (Count × List Char) := do
  let (least, rest) ← readCountNumber cs
  match rest with
  | '\x7d' :: rest => return (⟨least, some least⟩, rest)
  | ',' :: '\x7d' :: rest => return (⟨least, none⟩, rest)
  | ',' :: rest =>
    let (most, rest) ← readCountNumber rest
    match rest with
    | '\x7d' :: rest => if least ≤ most then return (⟨least, some most⟩, rest) else none
    | _ => none
  | _ => none

/-- The count that stands at the front, if there is one. -/
def readRepetition (cs : List Char) : Option (Option (Count × List Char)) :=
  match cs with
  | '*' :: rest => some (some (⟨0, none⟩, rest))
  | '+' :: rest => some (some (⟨1, none⟩, rest))
  | '?' :: rest => some (some (⟨0, some 1⟩, rest))
  | '\x7b' :: rest =>
    match readCount rest with
    | some (n, rest) => some (some (n, rest))
    | none => none
  | _ => some none

/-- Read the mark after a count that turns its preference around: whether the repetition is to find as much
as it can. -/
def readGreed (o : Options) (cs : List Char) : Bool × List Char :=
  match cs with
  | '?' :: rest => (o.shortFirst, rest)
  | cs => (!o.shortFirst, cs)

/-! ## Groups -/

/-- Read the name of a group up to its closing bracket. -/
def readGroupName (cs : List Char) : Option (String × List Char) :=
  let isStart (c : Char) : Bool := c = '_' || (Text.isWordChar c && !Text.isDecimalDigit c)
  let name := cs.takeWhile (· != '>')
  match name, cs.drop name.length with
  | c :: more, _ :: rest =>
    if isStart c && more.all (fun c => Text.isWordChar c || c = '.' || c = '[' || c = ']') then
      some (String.ofList name, rest)
    else none
  | _, _ => none

/-- How a parenthesis opens: a group that is remembered, a group with options of its own, or only options. -/
inductive Opening where
  | remembered (name : Option String)
  | group (o : Options)
  | options (o : Options)

/-- Read what stands after an opening parenthesis. -/
def readOpening (o : Options) (cs : List Char) : Option (Opening × List Char) :=
  let named (rest : List Char) : Option (Opening × List Char) :=
    (readGroupName rest).map fun (name, rest) => (.remembered (some name), rest)
  match cs with
  | '?' :: 'P' :: '<' :: rest => named rest
  | '?' :: '<' :: '=' :: _ => none
  | '?' :: '<' :: '!' :: _ => none
  | '?' :: '<' :: rest => named rest
  | '?' :: rest =>
    match readOptions o [] true false rest with
    | some (o, ':' :: after) => some (.group o, after)
    | some (o, ')' :: after) => if rest.length = after.length + 1 then none else some (.options o, after)
    | _ => none
  | rest => some (.remembered none, rest)

/-! ## Rows -/

/-- What the reader carries along a row: the options, the parts of the row and the alternatives before the
row, both last first, and the names and the number of the groups so far. -/
structure Row where
  options : Options
  parts : List Tree := []
  before : List Tree := []
  names : List String := []
  groups : Nat := 0

/-- The parts of the row in their order. -/
def Row.tree (r : Row) : Tree :=
  Tree.ofRow r.parts.reverse

/-- The alternatives with the row as the last of them. -/
def Row.all (r : Row) : Tree :=
  Tree.ofChoice (r.tree :: r.before).reverse

/-- Add a part to the row. -/
def Row.push (r : Row) (t : Tree) : Row :=
  { r with parts := t :: r.parts }

/-- Begin the next alternative. -/
def Row.next (r : Row) : Row :=
  { r with parts := [], before := r.tree :: r.before }

/-- Repeat the last part; there has to be one, and it must not be where options are set. -/
def Row.repeatLast (r : Row) (n : Count) (greedy : Bool) : Option Row :=
  match r.parts with
  | [] => none
  | .empty :: _ => none
  | t :: ts => some { r with parts := .repeated n greedy t :: ts }

/-- What a dot stands for: with the option any character, else any that ends no line. -/
def dotSet (o : Options) : CharSet :=
  if o.dotAll then .all
  else if o.pairedLines then .complement (.union (.single '\r') (.single '\n'))
  else .complement (.single '\n')

/-- The test that begins a line, or the text. -/
def startAnchor (o : Options) : Anchor :=
  if !o.multiLine then .textStart else if o.pairedLines then .pairedLineStart else .lineStart

/-- The test that ends a line, or the text. -/
def endAnchor (o : Options) : Anchor :=
  if !o.multiLine then .textEnd else if o.pairedLines then .pairedLineEnd else .lineEnd

/-- What an escape outside brackets stands for. -/
def Escape.tree (o : Options) : Escape → Tree
  | .literal c => .literal c o.anyCase
  | .set s => .chars s 0
  | .anchor a => .anchor a

/-- How deep a pattern may be nested. -/
def nestingLimit : Nat := 250

/-- Read a row up to the end of the text or the parenthesis that closes the group. -/
def readRow (fuel depth : Nat) (r : Row) (cs : List Char) : Option (Row × List Char) :=
  match fuel with
  | 0 => none
  | fuel + 1 =>
    let o := r.options
    match skipFree o cs with
    | [] => some (r, [])
    | ')' :: rest => some (r, ')' :: rest)
    | '|' :: rest => readRow fuel depth r.next rest
    | '(' :: rest =>
      match readOpening o rest with
      | none => none
      | some (.options o, rest) => readRow fuel depth { r.push .empty with options := o } rest
      | some (.group inner, rest) =>
        if depth = 0 then none
        else
          match readRow fuel (depth - 1) ⟨inner, [], [], r.names, r.groups⟩ rest with
          | some (g, ')' :: rest) =>
            readRow fuel depth { r.push (.group none g.all) with names := g.names, groups := g.groups } rest
          | _ => none
      | some (.remembered name, rest) =>
        if depth = 0 || name.any r.names.contains then none
        else
          let number := r.groups + 1
          match readRow fuel (depth - 1) ⟨o, [], [], name.toList ++ r.names, number⟩ rest with
          | some (g, ')' :: rest) =>
            readRow fuel depth
              { r.push (.group (some number) g.all) with names := g.names, groups := g.groups } rest
          | _ => none
    | '[' :: rest =>
      match readClass o rest with
      | some ((s, nesting), rest) => readRow fuel depth (r.push (.chars s nesting)) rest
      | none => none
    | '.' :: rest => readRow fuel depth (r.push (.chars (dotSet o) 0)) rest
    | '^' :: rest => readRow fuel depth (r.push (.anchor (startAnchor o))) rest
    | '$' :: rest => readRow fuel depth (r.push (.anchor (endAnchor o))) rest
    | '\\' :: rest =>
      match readEscape rest with
      | some (e, rest) => readRow fuel depth (r.push (e.tree o)) rest
      | none => none
    | c :: rest =>
      match readRepetition (c :: rest) with
      | none => none
      | some none => readRow fuel depth (r.push (.literal c o.anyCase)) rest
      | some (some (n, rest)) =>
        let (greedy, rest) := readGreed o rest
        match r.repeatLast n greedy with
        | some r => readRow fuel depth r rest
        | none => none

/-- Read the text of a pattern; `none` when it is no pattern, or one that is nested too deep. -/
def read (text : String) : Option Tree :=
  let cs := text.toList
  match readRow (cs.length + 1) nestingLimit { options := {} } cs with
  | some (r, []) => if r.all.nesting ≤ nestingLimit then some r.all else none
  | _ => none

end MediaCatalogue.Pattern
