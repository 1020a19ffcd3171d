import MediaCatalogue.Store.Filter

/-!
# Which documents a filter matches

A condition on a path holds when some value that the path leads to, or some item of an array among them,
passes its test; the negated conditions hold when the plain ones do not. An element condition asks for
one object in an array that passes a whole filter.
-/

set_option autoImplicit false

namespace MediaCatalogue

/-- Whether a test holds of one of the values, or of an item of an array among them. -/
def anyLeaf (test : Value → Bool) (values : List Value) : Bool :=
  values.any fun v => test v ||
    match v with
    | .array items => items.any test
    | _ => false

/-- Whether a value is a candidate: equal to it, worth the same, or found by it if it is a pattern. A
pattern that cannot be read finds nothing. -/
def Value.isCandidate (value candidate : Value) : Bool :=
  match value, candidate with
  | .string s, .regex pattern ignoreCase =>
    (Pattern.ofText? pattern ignoreCase).any (·.isFoundIn s)
  | value, candidate => value.equals candidate || value.compare? candidate == some .eq

namespace Filter

/-- Whether a value is found at a path, or null and the path leads nowhere. -/
def isEqualAt (path : String) (value : Value) (fields : Fields Value) : Bool :=
  let values := Fields.resolve path fields
  (value.isNull && values.isEmpty) || anyLeaf (·.equals value) values

/-- Whether a value at a path, or an item of it, is among some candidates. -/
def isOneOfAt (path : String) (candidates : List Value) (fields : Fields Value) : Bool :=
  anyLeaf (fun v => candidates.any v.isCandidate) (Fields.resolve path fields)

/-- Whether a test holds of some object in an array among the values. -/
def anyElement (test : Fields Value → Bool) (values : List Value) : Bool :=
  values.any fun v =>
    match v with
    | .array items => items.any fun item =>
      match item with
      | .object fields => test fields
      | _ => false
    | _ => false

mutual

/-- Whether fields pass a filter. -/
def isMatch : Filter → Fields Value → Bool
  | .everything, _ => true
  | .equal path value, fields => isEqualAt path value fields
  | .notEqual path value, fields => !isEqualAt path value fields
  | .compared c path value, fields =>
    anyLeaf (fun v => (v.compare? value).any c.accepts) (Fields.resolve path fields)
  | .oneOf path values, fields => isOneOfAt path values fields
  | .noneOf path values, fields => !isOneOfAt path values fields
  | .present path wanted, fields => !(Fields.resolve path fields).isEmpty == wanted
  | .found path pattern, fields =>
    anyLeaf (fun v => v.string?.any pattern.isFoundIn) (Fields.resolve path fields)
  | .element path f, fields => anyElement f.isMatch (Fields.resolve path fields)
  | .all fs, fields => allMatch fs fields
  | .any fs, fields => anyMatch fs fields

/-- Whether fields pass every filter of a list. -/
def allMatch : List Filter → Fields Value → Bool
  | [], _ => true
  | f :: fs, fields => f.isMatch fields && allMatch fs fields

/-- Whether fields pass some filter of a list. -/
def anyMatch : List Filter → Fields Value → Bool
  | [], _ => false
  | f :: fs, fields => f.isMatch fields || anyMatch fs fields

end

end Filter
end MediaCatalogue
