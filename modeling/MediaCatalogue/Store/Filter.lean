import MediaCatalogue.Document.ExtendedJson
import MediaCatalogue.Document.Path
import MediaCatalogue.Pattern.Search

/-!
# Filters

A filter document is fields whose names are paths, each with a value to equal, a pattern to find, or an
object of operators; beside them `$and` and `$or` hold lists of filter documents. It is read into a
`Filter`, a tree of conditions, before any document is looked at. Of several conditions all must hold.
-/

set_option autoImplicit false

namespace MediaCatalogue

/-- An order that a stored value may stand in to the value of a condition. -/
inductive Comparison where
  | less
  | lessOrEqual
  | greater
  | greaterOrEqual
deriving DecidableEq

/-- Whether values that compare so stand in the order that is asked for. -/
def Comparison.accepts (c : Comparison) (o : Ordering) : Bool :=
  match c with
  | .less => o == .lt
  | .lessOrEqual => o != .gt
  | .greater => o == .gt
  | .greaterOrEqual => o != .lt

/-- A condition on the fields of a document. -/
inductive Filter where
  | everything
  | equal (path : String) (value : Value)
  | notEqual (path : String) (value : Value)
  | compared (comparison : Comparison) (path : String) (value : Value)
  | oneOf (path : String) (values : List Value)
  | noneOf (path : String) (values : List Value)
  | present (path : String) (wanted : Bool)
  | found (path : String) (pattern : Pattern)
  | element (path : String) (filter : Filter)
  | all (filters : List Filter)
  | any (filters : List Filter)

/-- Why a filter document has the wrong form. -/
inductive FilterFormat where
  | notAnArray (operator : String)
  | clauseNotAnObject (operator : String)
  | existsNotABoolean
  | patternNotAString
  | elementNotAnObject

/-- What is said of a filter document of the wrong form. -/
def FilterFormat.message : FilterFormat → String
  | .notAnArray operator => operator ++ " must be an array"
  | .clauseNotAnObject operator => operator ++ " clauses must be objects"
  | .existsNotABoolean => "$exists must be a boolean"
  | .patternNotAString => "$regex must be a string"
  | .elementNotAnObject => "$elemMatch must be an object"

/-- Why a filter document is refused. -/
inductive FilterError where
  | invalidFormat (reason : FilterFormat)
  | unsupportedOperator (operator : String)
  | invalidPattern (source : String)

/-- What is said of a filter document that is refused. -/
def FilterError.message : FilterError → String
  | .invalidFormat reason => "Invalid filter format: " ++ reason.message
  | .unsupportedOperator operator => "Unsupported operator: " ++ operator
  | .invalidPattern source => "Invalid regex pattern: " ++ source

namespace Filter

/-- Whether a name in a filter document is that of an operator: it begins with a dollar sign. -/
def isOperator (name : String) : Bool :=
  name.toList.head? == some '$'

/-- All of some conditions: none is no condition, and one is itself. -/
def conjunction : List Filter → Filter
  | [] => .everything
  | [f] => f
  | fs => .all fs

/-- The condition that a pattern is found at a path. -/
def ofPattern (path pattern : String) (ignoreCase : Bool) : Except FilterError Filter :=
  match Pattern.ofText? pattern ignoreCase with
  | some p => .ok (.found path p)
  | none => .error (.invalidPattern pattern)

/-- Whether the options beside a pattern ask to ignore case. -/
def optionsIgnoreCase (operators : Fields Value) : Bool :=
  Value.ignoresCase ((Fields.get? "$options" operators).bind Value.string?)

/-- The condition of an operator that has no filter documents in its operand, if there is such an
operator. -/
def ofOperator? (path : String) (operators : Fields Value) (name : String) (operand : Value) :
    Option (Except FilterError Filter) :=
  let values (make : List Value → Filter) : Except FilterError Filter :=
    match operand with
    | .array items => .ok (make items)
    | _ => .error (.invalidFormat (.notAnArray name))
  match name with
  | "$eq" => some (.ok (.equal path operand))
  | "$ne" => some (.ok (.notEqual path operand))
  | "$gt" => some (.ok (.compared .greater path operand))
  | "$gte" => some (.ok (.compared .greaterOrEqual path operand))
  | "$lt" => some (.ok (.compared .less path operand))
  | "$lte" => some (.ok (.compared .lessOrEqual path operand))
  | "$in" => some (values (.oneOf path))
  | "$nin" => some (values (.noneOf path))
  | "$exists" => some <|
    match operand with
    | .bool b => .ok (.present path b)
    | _ => .error (.invalidFormat .existsNotABoolean)
  | "$regex" => some <|
    match operand with
    | .string pattern => ofPattern path pattern (optionsIgnoreCase operators)
    | .regex pattern ignoreCase => ofPattern path pattern (ignoreCase || optionsIgnoreCase operators)
    | _ => .error (.invalidFormat .patternNotAString)
  | _ => none

/-- Whether an object in a filter document holds operators, and nothing else. -/
def areOperators (fields : Fields Value) : Bool :=
  !fields.isEmpty && fields.all fun f => isOperator f.1

mutual

/-- The conditions of the entries of a filter document. -/
def ofEntries : List (String × Value) → Except FilterError (List Filter)
  | [] => .ok []
  | (name, value) :: rest =>
    match ofEntry name value with
    | .error e => .error e
    | .ok f =>
      match ofEntries rest with
      | .error e => .error e
      | .ok fs => .ok (f :: fs)

/-- The condition of one entry: clauses, operators, a pattern, or a value to equal. -/
def ofEntry (name : String) : Value → Except FilterError Filter
  | .array clauses =>
    if name = "$and" then (ofClauses name clauses).map .all
    else if name = "$or" then (ofClauses name clauses).map .any
    else if isOperator name then .error (.unsupportedOperator name)
    else .ok (.equal name (.array clauses))
  | value =>
    if name = "$and" ∨ name = "$or" then .error (.invalidFormat (.notAnArray name))
    else if isOperator name then .error (.unsupportedOperator name)
    else match value with
      | .object operators =>
        if areOperators operators then (ofOperators name operators operators).map conjunction
        else .ok (.equal name (.object operators))
      | .regex pattern ignoreCase => ofPattern name pattern ignoreCase
      | value => .ok (.equal name value)

/-- The filters of the clauses of `$and` or `$or`. -/
def ofClauses (operator : String) : List Value → Except FilterError (List Filter)
  | [] => .ok []
  | clause :: rest =>
    match ofClause operator clause with
    | .error e => .error e
    | .ok f =>
      match ofClauses operator rest with
      | .error e => .error e
      | .ok fs => .ok (f :: fs)

/-- The filter of one clause of `$and` or `$or`. -/
def ofClause (operator : String) : Value → Except FilterError Filter
  | .object fields => (ofEntries fields).map conjunction
  | _ => .error (.invalidFormat (.clauseNotAnObject operator))

/-- The conditions of the operators on a path; options are part of the pattern that they stand beside. -/
def ofOperators (path : String) (operators : Fields Value) :
    List (String × Value) → Except FilterError (List Filter)
  | [] => .ok []
  | (name, operand) :: rest =>
    if name = "$options" then ofOperators path operators rest
    else
      match if name = "$elemMatch" then (ofElement operand).map (.element path)
        else match ofOperator? path operators name operand with
          | some f => f
          | none => .error (.unsupportedOperator name) with
      | .error e => .error e
      | .ok f =>
        match ofOperators path operators rest with
        | .error e => .error e
        | .ok fs => .ok (f :: fs)

/-- The filter that an element of an array must pass. -/
def ofElement : Value → Except FilterError Filter
  | .object fields => (ofEntries fields).map conjunction
  | _ => .error (.invalidFormat .elementNotAnObject)

end

/-- Read a filter document: all of its entries have to hold. -/
def ofFields (document : Fields Value) : Except FilterError Filter :=
  (ofEntries document).map conjunction

end Filter
end MediaCatalogue
