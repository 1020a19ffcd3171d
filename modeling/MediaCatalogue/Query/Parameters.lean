import MediaCatalogue.Query.Basic
import MediaCatalogue.Text.Blank
import MediaCatalogue.Text.Split

/-!
# Queries from parameters

A parameter is a name, an equals sign and values with commas between them. The name is that of an
attribute, with an operator after a dash if it is not to be `equals`; the names `publishers`, `offset` and
`limit` restrict the query instead. Every parameter is cut at its equals sign before any is read.
-/

set_option autoImplicit false

namespace MediaCatalogue.Query

/-- The values in a text: the parts between commas without white space around them, but for empty ones. -/
def tokens (text : String) : List String :=
  ((Text.split ',' text).map Text.trimBlank).filter fun t => !t.isEmpty

/-- Whether a text may be a keyword of an attribute; only the fields with a vocabulary of their own are
checked. -/
def isKeyword (a : Attribute) (text : String) : Bool :=
  if a.field = "transportType" then (Vocabulary.ofKey? (α := TransportType) text).isSome
  else if a.field = "mediaType" then (Vocabulary.ofKey? (α := MediaType) text).isSome
  else true

/-- Read a truth value. -/
def readBool (text : String) : Except ValueTextError Bool :=
  if text = "true" then .ok true else if text = "false" then .ok false else .error .boolean

/-- Read each text; the first that is refused is reported for the attribute. -/
def readEach {α : Type} (a : Attribute) (read : String → Except ValueTextError α) :
    List String → Except QueryError (List α)
  | [] => .ok []
  | t :: ts =>
    match read t with
    | .error e => .error (.invalidValue a t e)
    | .ok v =>
      match readEach a read ts with
      | .error e => .error e
      | .ok vs => .ok (v :: vs)

/-- Read the values of an attribute from their texts, each by the kind of the attribute. -/
def readOperands (a : Attribute) (texts : List String) : Except QueryError Operands :=
  match a.valueKind with
  | .integer =>
    (readEach a (fun t => (Text.readInt64 t).mapError .integer) texts).map .integers
  | .string => .ok (.strings texts)
  | .boolean => (readEach a readBool texts).map .booleans
  | .keyword =>
    (readEach a (fun t => if isKeyword a t then .ok t else .error .keyword) texts).map .keywords
  | .dateTime =>
    (readEach a (fun t => (Rfc3339.parse t).mapError .dateTime) texts).map .dateTimes

/-- The name of the attribute in a parameter, and its operator. -/
def readName (name : String) : Except QueryError (String × Operator) :=
  match Text.splitOnce? '-' name with
  | none => .ok (name, .equals)
  | some (subject, operator) =>
    match Operator.ofName? operator with
    | some o => .ok (subject, o)
    | none => .error (.unknownOperator operator)

/-- Read a parameter as a constraint. -/
def readConstraint (name value : String) : Except QueryError Constraint := do
  let (subjectName, operator) ← readName name
  match Attribute.ofName? subjectName with
  | none => throw (.unknownAttribute subjectName)
  | some a =>
    let texts := tokens value
    if texts.isEmpty then throw (.missingValue a)
    Constraint.of a operator (← readOperands a texts)

/-- Read the keys of publishers. -/
def readPublishers (value : String) : Except QueryError (List Publisher) :=
  (tokens value).mapM fun key =>
    match Vocabulary.ofKey? key with
    | some p => .ok p
    | none => .error (.invalidParameter (.unknownPublisher key))

/-- Read a number of results. -/
def readCount (name value : String) : Except QueryError Nat :=
  match Text.readWord? (Text.trimBlank value).toList with
  | some n => .ok n
  | none => .error (.invalidParameter (.malformed (name ++ "=" ++ value)))

/-- Add what a parameter asks for to a query: publishers, the window, or else a constraint. -/
def addParameter (q : Query) (name value : String) : Except QueryError Query :=
  if name = "publishers" then (readPublishers value).map fun ps => q.withPublishers ps
  else if name = "offset" then
    (readCount name value).map fun n => { q with selection := { q.selection with offset := n } }
  else if name = "limit" then
    (readCount name value).map fun n => { q with selection := { q.selection with limit := some n } }
  else (readConstraint name value).map fun c => { q with constraints := q.constraints ++ [c] }

/-- Cut a parameter at its equals sign. -/
def splitParameter (parameter : String) : Except QueryError (String × String) :=
  match Text.splitOnce? '=' parameter with
  | some pair => .ok pair
  | none => .error (.invalidParameter (.malformed parameter))

/-- Read a query from parameters. All are cut before any is read, so that one without an equals sign is
refused first. -/
def ofParameters (parameters : List String) : Except QueryError Query := do
  let pairs ← parameters.mapM splitParameter
  pairs.foldlM (fun q pair => addParameter q pair.1 pair.2) {}

end MediaCatalogue.Query
