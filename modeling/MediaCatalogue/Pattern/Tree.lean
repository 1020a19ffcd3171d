import MediaCatalogue.Pattern.Basic

/-!
# Patterns as they are written

The tree of a pattern keeps what its meaning forgets: groups, the order of rows, and how deep it is nested.
A row or a choice has at least two parts. Where only options are set there is an empty part.
-/

set_option autoImplicit false

namespace MediaCatalogue

/-- A pattern as it is written. A set of characters has the depth to which its brackets are nested; a group is
numbered if what it finds is remembered; a repetition finds as much as it can, or as little. -/
inductive Tree where
  | empty
  | literal (c : Char) (anyCase : Bool)
  | chars (set : CharSet) (nesting : Nat)
  | anchor (a : Anchor)
  | repeated (n : Count) (greedy : Bool) (t : Tree)
  | group (number : Option Nat) (t : Tree)
  | row (ts : List Tree)
  | choice (ts : List Tree)

namespace Tree

instance : Inhabited Tree := ⟨.empty⟩

/-- Parts in a row: a row only if there are several. -/
def ofRow : List Tree → Tree
  | [] => .empty
  | [t] => t
  | ts => .row ts

/-- Parts of which one is chosen: a choice only if there are several. -/
def ofChoice : List Tree → Tree
  | [] => .empty
  | [t] => t
  | ts => .choice ts

mutual

/-- How deep the tree is nested. -/
def nesting : Tree → Nat
  | .empty => 0
  | .literal _ _ => 0
  | .chars _ n => n
  | .anchor _ => 0
  | .repeated _ _ t => t.nesting + 1
  | .group _ t => t.nesting + 1
  | .row ts => nestingOfAll ts + 1
  | .choice ts => nestingOfAll ts + 1

/-- How deep the deepest of some trees is nested. -/
def nestingOfAll : List Tree → Nat
  | [] => 0
  | t :: ts => max t.nesting (nestingOfAll ts)

end

/-- The set of a single character, in any case if asked. -/
def literalSet (c : Char) (anyCase : Bool) : CharSet :=
  if anyCase then .anyCase (.single c) else .single c

mutual

/-- What the pattern means. -/
def expr : Tree → Expr
  | .empty => .empty
  | .literal c anyCase => .chars (literalSet c anyCase)
  | .chars set _ => .chars set
  | .anchor a => .anchor a
  | .repeated n _ t => .repeated n t.expr
  | .group _ t => t.expr
  | .row ts => exprOfRow ts
  | .choice ts => exprOfChoice ts

/-- The meaning of trees in a row. -/
def exprOfRow : List Tree → Expr
  | [] => .empty
  | [t] => t.expr
  | t :: ts => .seq t.expr (exprOfRow ts)

/-- The meaning of trees of which one is chosen. -/
def exprOfChoice : List Tree → Expr
  | [] => .empty
  | [t] => t.expr
  | t :: ts => .alt t.expr (exprOfChoice ts)

end

end Tree
end MediaCatalogue
