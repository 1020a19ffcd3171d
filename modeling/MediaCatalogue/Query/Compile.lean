import MediaCatalogue.Document.Value
import MediaCatalogue.Pattern.Escape
import MediaCatalogue.Query.Basic
import MediaCatalogue.Query.Path
import MediaCatalogue.Text.Casing

/-!
# Compiling queries to filter documents

Each constraint becomes a condition on a field. The conditions on one place in the document are gathered
in one filter document. That of the document itself is the result; each of the others becomes an
`$elemMatch` condition in the nearest place above that has conditions of its own, so that conditions on one
version, say, must hold of the same element of the array.
-/

set_option autoImplicit false

namespace MediaCatalogue

/-- A condition of one operator. -/
def operatorValue (name : String) (operand : Value) : Value :=
  .object [(name, operand)]

/-- The greatest of some values, the last of those that are equal; none of no values. -/
def greatest? {α : Type} [Ord α] : List α → Option α
  | [] => none
  | a :: as => some (as.foldl (fun m b => if (compare m b).isLE then b else m) a)

/-- The least of some values, the first of those that are equal; none of no values. -/
def least? {α : Type} [Ord α] : List α → Option α
  | [] => none
  | a :: as => some (as.foldl (fun m b => if (compare b m).isLT then b else m) a)

/-- Whole numbers are ordered with their signs. -/
instance instOrdInt64 : Ord Int64 where
  compare a b := compare a.toInt b.toInt

namespace Constraint

/-- A condition built from a value that may be missing. -/
def conditionOf {α : Type} (c : Constraint) (make : α → Value) (value : Option α) :
    Except QueryError (Option Value) :=
  match value with
  | some a => .ok (some (make a))
  | none => .error (.missingValue c.subject)

/-- The condition that a value is one of a list, which must not be empty. -/
def oneOfCondition (c : Constraint) (values : List Value) : Except QueryError (Option Value) :=
  c.conditionOf (fun vs => operatorValue "$in" (.array vs)) (if values.isEmpty then none else some values)

/-- The condition of a constraint on the field of its attribute, if it restricts anything. Of several bounds
the widest counts, of several beginnings or truth values the first. -/
def condition (c : Constraint) : Except QueryError (Option Value) :=
  match c.operands, c.operator with
  | .integers ns, .equals => c.oneOfCondition (ns.map .int64)
  | .integers ns, .lessThan => c.conditionOf (fun n => operatorValue "$lt" (.int64 n)) (greatest? ns)
  | .integers ns, .greaterThan => c.conditionOf (fun n => operatorValue "$gt" (.int64 n)) (least? ns)
  | .strings ss, .equals => c.oneOfCondition (ss.map .string)
  | .strings ss, .beginning =>
    c.conditionOf (fun s => .regex ("^" ++ Pattern.escape s) true) ss.head?
  | .booleans bs, .equals =>
    if c.isAlwaysTrue then .ok none else c.conditionOf .bool bs.head?
  | .keywords ks, .equals => c.oneOfCondition (ks.map fun k => .string (Text.lower k))
  | .dateTimes ts, .before =>
    c.conditionOf (fun t => operatorValue "$lt" (.dateTime t)) (greatest? ts)
  | .dateTimes ts, .after =>
    c.conditionOf (fun t => operatorValue "$gt" (.dateTime t)) (least? ts)
  | operands, operator => .error (.unsupportedOperator c.subject operator operands.kind)

end Constraint

/-- Put a condition on a field. Operators join those that are there, in place of an equal one; any other
condition takes the place of what is there. -/
def mergeCondition (field : String) (condition : Value) (filter : Fields Value) : Fields Value :=
  match Fields.get? field filter, condition with
  | some (.object present), .object added =>
    Fields.insert field (.object (Fields.insertAll added present)) filter
  | _, condition => Fields.insert field condition filter

/-- A condition on a field at a place in the document. -/
structure PlacedCondition where
  path : EntityPath
  field : String
  condition : Value

namespace Query

/-- The conditions of the constraints that restrict anything, in order. -/
def placedConditions : List Constraint → Except QueryError (List PlacedCondition)
  | [] => .ok []
  | c :: cs =>
    match c.subject.path with
    | .error e => .error e
    | .ok path =>
      match c.condition with
      | .error e => .error e
      | .ok found =>
        match placedConditions cs with
        | .error e => .error e
        | .ok rest =>
          match found with
          | some condition => .ok (⟨path, c.subject.fieldName, condition⟩ :: rest)
          | none => .ok rest

/-- The filter document of a place: its conditions put on their fields one after another. -/
def filterAt (path : EntityPath) (conditions : List PlacedCondition) : Fields Value :=
  (conditions.filter fun c => c.path == path).foldl
    (fun filter c => mergeCondition c.field c.condition filter) []

/-- The nested places that have conditions, those above before those beneath, with their filters. -/
def nestedFilters (conditions : List PlacedCondition) : List (EntityPath × Fields Value) :=
  (EntityPath.nested.filter fun p => conditions.any fun c => c.path == p).map fun p =>
    (p, filterAt p conditions)

/-- The nearest place above that is among the given ones. -/
def nearest? (path : EntityPath) (places : List (EntityPath × Fields Value)) : Option EntityPath :=
  path.ancestors.find? fun p => places.any fun place => place.1 == p

/-- The names from one place to another beneath it, with dots between them. -/
def relativePath (above : EntityPath) (path : EntityPath) : String :=
  String.intercalate "." (path.segments.drop above.segments.length)

/-- Embed each of the nested filters, the last first, in the nearest of those before it or in the root. -/
def embed (root : Fields Value) : List (EntityPath × Fields Value) → Fields Value
  | [] => root
  | (path, filter) :: before =>
    let condition := operatorValue "$elemMatch" (.object filter)
    match nearest? path before with
    | some above =>
      embed root (before.map fun place =>
        if place.1 = above then
          (place.1, mergeCondition (relativePath above path) condition place.2)
        else place)
    | none => embed (mergeCondition (relativePath .root path) condition root) before
termination_by places => places.length
decreasing_by all_goals simp

/-- The filter document of a query. -/
def compile (q : Query) : Except QueryError (Fields Value) :=
  if q.matchesNothing then .error .matchesNothing
  else
    match placedConditions q.constraints with
    | .error e => .error e
    | .ok conditions => .ok (embed (filterAt .root conditions) (nestedFilters conditions).reverse)

end Query
end MediaCatalogue
