import MediaCatalogue.Pattern.CharSet
import Std.Data.HashSet

/-!
# Search expressions

A regular expression over characters, with tests of the position between two characters. A text is found by
it when the expression matches at some place in the text.

The search runs through the text once and keeps the residuals: expressions of which one must match from
here on. Before each character the whole expression is added, so that a match may start there; the
character then turns each residual into its partial derivatives. Tests of position are decided by the
characters before and after, which is all that the two functions `Expr.nullable` and `Expr.derive` need
to know of the surroundings.

A counted repetition is one node, and what is left of it after a character is the repetition with smaller
counts. When a copy can match the empty text here, any number of copies may be spent on that, and the least
count is met.
-/

set_option autoImplicit false

namespace MediaCatalogue

/-- A test of the position between two characters. -/
inductive Anchor where
  | textStart
  | textEnd
  | lineStart
  | lineEnd
  | pairedLineStart
  | pairedLineEnd
  | wordBoundary
  | notWordBoundary
  | wordStart
  | wordEnd
  | wordStartHalf
  | wordEndHalf
deriving DecidableEq, Hashable

/-- Whether a character that may be missing belongs to a word. -/
def isWordAt (c : Option Char) : Bool :=
  c.any Text.isWordChar

/-- Whether a test holds between two characters; at the ends of the text one is missing. A paired line ends
with a carriage return, a line feed, or both as one. -/
def Anchor.holds (a : Anchor) (before after : Option Char) : Bool :=
  match a with
  | .textStart => before.isNone
  | .textEnd => after.isNone
  | .lineStart => before.isNone || before == some '\n'
  | .lineEnd => after.isNone || after == some '\n'
  | .pairedLineStart =>
    before.isNone || before == some '\n' || (before == some '\r' && after != some '\n')
  | .pairedLineEnd =>
    after.isNone || after == some '\r' || (after == some '\n' && before != some '\r')
  | .wordBoundary => isWordAt before != isWordAt after
  | .notWordBoundary => isWordAt before == isWordAt after
  | .wordStart => !isWordAt before && isWordAt after
  | .wordEnd => isWordAt before && !isWordAt after
  | .wordStartHalf => !isWordAt before
  | .wordEndHalf => !isWordAt after

/-- How often something is repeated: at least, and at most. -/
structure Count where
  least : Nat
  most : Option Nat
deriving DecidableEq, Hashable

/-- The members of a list, each once. -/
def distinct {α : Type} [BEq α] [Hashable α] (xs : List α) : List α :=
  (xs.foldl (fun (found : Std.HashSet α × List α) x =>
    if found.1.contains x then found else (found.1.insert x, x :: found.2)) (∅, [])).2

/-- A regular expression. -/
inductive Expr where
  | empty
  | chars (set : CharSet)
  | anchor (a : Anchor)
  | seq (a b : Expr)
  | alt (a b : Expr)
  | repeated (n : Count) (a : Expr)
deriving DecidableEq, Hashable

namespace Expr

instance : Inhabited Expr := ⟨.empty⟩

/-- Whether the expression matches the empty text between two characters. -/
def nullable (before after : Option Char) : Expr → Bool
  | .empty => true
  | .chars _ => false
  | .anchor a => a.holds before after
  | .seq a b => a.nullable before after && b.nullable before after
  | .alt a b => a.nullable before after || b.nullable before after
  | .repeated n a => n.least == 0 || a.nullable before after

/-- One expression after another. -/
def andThen (a b : Expr) : Expr :=
  match a with
  | .empty => b
  | a => .seq a b

/-- What may follow after the character `c`, with `before` the character before it. -/
def derive (before : Option Char) (c : Char) : Expr → List Expr
  | .empty => []
  | .chars set => if set.holds c.toNat then [.empty] else []
  | .anchor _ => []
  | .seq a b =>
    let first := (a.derive before c).map (·.andThen b)
    if a.nullable before (some c) then first ++ b.derive before c else first
  | .alt a b => a.derive before c ++ b.derive before c
  | .repeated n a =>
    if n.most = some 0 then []
    else
      let least := if a.nullable before (some c) then 0 else n.least - 1
      (a.derive before c).map (·.andThen (.repeated ⟨least, n.most.map (· - 1)⟩ a))

/-- Whether one of the residuals, or the expression itself from some later place on, matches. -/
def findFrom (e : Expr) (before : Option Char) (residuals : List Expr) : List Char → Bool
  | [] => (e :: residuals).any (·.nullable before none)
  | c :: rest =>
    let residuals := e :: residuals
    residuals.any (·.nullable before (some c)) ||
      findFrom e (some c) (distinct (residuals.flatMap (·.derive before c))) rest

/-- Whether the expression matches somewhere in the text. -/
def isFoundIn (e : Expr) (text : String) : Bool :=
  e.findFrom none [] text.toList

end Expr
end MediaCatalogue
