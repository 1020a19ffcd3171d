import MediaCatalogue.Calendar.Rfc3339
import MediaCatalogue.Query.Attribute
import MediaCatalogue.Text.Numeral

/-!
# Why queries are refused

A query is refused where it is read, when a name, a value or a parameter is not understood, or where it
is compiled, when the store has no condition for a constraint.
-/

set_option autoImplicit false

namespace MediaCatalogue

/-- The ways in which a constraint can compare. -/
inductive Operator where
  | equals
  | lessThan
  | greaterThan
  | before
  | after
  | beginning
  | search
deriving DecidableEq

namespace Operator

/-- All operators. -/
def all : List Operator :=
  [.equals, .lessThan, .greaterThan, .before, .after, .beginning, .search]

/-- The name of an operator, as parameters give it. -/
def name : Operator → String
  | .equals => "equals"
  | .lessThan => "lessThan"
  | .greaterThan => "greaterThan"
  | .before => "before"
  | .after => "after"
  | .beginning => "beginning"
  | .search => "search"

/-- The operator of a name. -/
def ofName? (n : String) : Option Operator :=
  all.find? fun o => o.name == n

end Operator

/-- Why a text is no value of an attribute. -/
inductive ValueTextError where
  | integer (e : Text.NumeralError)
  | boolean
  | keyword
  | dateTime (e : DateError)

/-- What is said of a text that is no value. -/
def ValueTextError.message : ValueTextError → String
  | .integer e => e.message
  | .boolean => "provided string was not \x60true\x60 or \x60false\x60"
  | .keyword => "not a known value"
  | .dateTime e => e.message

/-- Why a parameter is not understood. -/
inductive ParameterError where
  | malformed (text : String)
  | unknownPublisher (key : String)

/-- What is said of a parameter that is not understood. -/
def ParameterError.message : ParameterError → String
  | .malformed text => text
  | .unknownPublisher key => "unknown publisher " ++ key

/-- Why a query is refused. -/
inductive QueryError where
  | matchesNothing
  | unsupportedOperator (subject : Attribute) (operator : Operator) (kind : ValueKind)
  | unsupportedEntity (subject : Attribute)
  | missingValue (subject : Attribute)
  | valueKindMismatch (subject : Attribute) (found : ValueKind)
  | unknownAttribute (name : String)
  | unknownOperator (name : String)
  | invalidValue (subject : Attribute) (value : String) (reason : ValueTextError)
  | invalidParameter (reason : ParameterError)

/-- What is said of a query that is refused. -/
def QueryError.message : QueryError → String
  | .matchesNothing => "Query matches nothing and cannot be compiled"
  | .unsupportedOperator a o k =>
    "Operator " ++ o.name ++ " is not supported for " ++ k.name ++ " attribute " ++ a.name
  | .unsupportedEntity a =>
    "Attribute " ++ a.name ++ " targets " ++ a.target.name ++ ", which has no document path"
  | .missingValue a => "No value given for " ++ a.name
  | .valueKindMismatch a found =>
    "Attribute " ++ a.name ++ " takes " ++ a.valueKind.name ++ " values, got " ++ found.name
  | .unknownAttribute name => "Unknown attribute: " ++ name
  | .unknownOperator name => "Unknown operator: " ++ name
  | .invalidValue a value reason =>
    "Invalid value " ++ value ++ " for " ++ a.name ++ ": " ++ reason.message
  | .invalidParameter reason => "Invalid parameter: " ++ reason.message

end MediaCatalogue
