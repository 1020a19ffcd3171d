import MediaCatalogue.Query.Error

/-!
# Constraints

A constraint compares an attribute with some values, of which one has to fit. A hard constraint may reject
a result; a soft one only narrows what is nested in it.
-/

set_option autoImplicit false

namespace MediaCatalogue

/-- The values of a constraint, all of one kind. -/
inductive Operands where
  | integers (ns : List Int64)
  | strings (ss : List String)
  | booleans (bs : List Bool)
  | keywords (ks : List String)
  | dateTimes (ts : List Instant)
deriving DecidableEq

namespace Operands

/-- The kind of the values. -/
def kind : Operands → ValueKind
  | .integers _ => .integer
  | .strings _ => .string
  | .booleans _ => .boolean
  | .keywords _ => .keyword
  | .dateTimes _ => .dateTime

/-- How many values there are. -/
def count : Operands → Nat
  | .integers ns => ns.length
  | .strings ss => ss.length
  | .booleans bs => bs.length
  | .keywords ks => ks.length
  | .dateTimes ts => ts.length

/-- Texts for an attribute that takes keywords are keywords. -/
def coerce (k : ValueKind) : Operands → Operands
  | .strings ss => if k = .keyword then .keywords ss else .strings ss
  | v => v

end Operands

/-- An attribute, how it is compared, and with what. -/
structure Constraint where
  subject : Attribute
  operator : Operator
  operands : Operands
  soft : Bool := false
deriving DecidableEq

namespace Constraint

/-- A hard constraint, if the values are of the kind of the attribute. -/
def of (a : Attribute) (o : Operator) (v : Operands) : Except QueryError Constraint :=
  let v := v.coerce a.valueKind
  if v.kind = a.valueKind then .ok { subject := a, operator := o, operands := v }
  else .error (.valueKindMismatch a v.kind)

/-- Whether the constraint holds of everything: it asks for a truth value that is either of the two. -/
def isAlwaysTrue (c : Constraint) : Bool :=
  match c.operands, c.operator with
  | .booleans bs, .equals => bs.contains true && bs.contains false
  | _, _ => false

/-- How a constraint is shown. -/
def display (c : Constraint) : String :=
  c.subject.name ++ "-" ++ c.operator.name ++ (if c.soft then "(soft)" else "")

end Constraint
end MediaCatalogue
