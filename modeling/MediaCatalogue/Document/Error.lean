import MediaCatalogue.Calendar.Rfc3339
import MediaCatalogue.Json.Writer

/-!
# Why documents are refused

A document can be too large or too deep, a path can lead nowhere, and a JSON value can be no document.
-/

set_option autoImplicit false

namespace MediaCatalogue

/-- The largest size of a document, in bytes. -/
def maxDocumentSize : Nat := 16777216

/-- The deepest nesting in a document. -/
def maxNestingDepth : Nat := 32

/-- Why a JSON value cannot be read as fields. -/
inductive UnreadableJson where
  | date (json : Json)
  | dateText (text : String) (reason : DateError)
  | notAnObject

/-- What is said of a JSON value that cannot be read. -/
def UnreadableJson.message : UnreadableJson → String
  | .date json => "Invalid $date: " ++ json.compact
  | .dateText text reason => "Invalid $date " ++ text ++ ": " ++ reason.message
  | .notAnObject => "Filter must be an object"

/-- Why a document, or a change to one, is refused. -/
inductive DocumentError where
  | tooLarge (size : Nat)
  | tooDeep (depth : Nat)
  | invalidPath (path : String)
  | unreadable (reason : UnreadableJson)

/-- What is said of a document that is refused. -/
def DocumentError.message : DocumentError → String
  | .tooLarge size => s!"Document too large: {size} bytes (max: {maxDocumentSize})"
  | .tooDeep depth => s!"Nesting too deep: {depth} levels (max: {maxNestingDepth})"
  | .invalidPath path => "Invalid path: " ++ path
  | .unreadable reason => "Deserialization error: " ++ reason.message

end MediaCatalogue
