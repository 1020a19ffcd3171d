import MediaCatalogue.Pattern.Reader
import MediaCatalogue.Pattern.Size

/-!
# Patterns to search with

A pattern is accepted when its text can be read and its automata are not too large. It is searched for by its
expression.
-/

set_option autoImplicit false

namespace MediaCatalogue

/-- A pattern that has been read: its text and its expression. -/
structure Pattern where
  source : String
  expr : Expr

/-- Read a pattern, in any letter case if asked; `none` when it is no pattern, too large, or of one of the
forms that are not read. -/
def Pattern.ofText? (pattern : String) (ignoreCase : Bool) : Option Pattern := do
  let source := if ignoreCase then "(?i)" ++ pattern else pattern
  let tree ← Pattern.read source
  if tree.shape.fits then return ⟨source, tree.expr⟩ else none

/-- Whether the pattern is found anywhere in a text. -/
def Pattern.isFoundIn (p : Pattern) (text : String) : Bool :=
  p.expr.isFoundIn text

end MediaCatalogue
