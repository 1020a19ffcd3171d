import MediaCatalogue.Document.Path
import MediaCatalogue.Document.ExtendedJson
import MediaCatalogue.Identifier.Basic

/-!
# Documents

A document is fields under an identifier. What may be stored is limited in size and in depth; the size of
a document is that of its fields, and the size is looked at first.
-/

set_option autoImplicit false

namespace MediaCatalogue

/-- A stored document. -/
structure Document where
  id : DocumentId
  fields : Fields Value

namespace Document

/-- The size in bytes. -/
def size (d : Document) : Nat :=
  Value.sizeOfFields d.fields

/-- How deep the values of the fields are nested. -/
def depth (d : Document) : Nat :=
  Value.depthOfFields d.fields

/-- Whether the document may be stored. -/
def validate (d : Document) : Except DocumentError Unit :=
  if maxDocumentSize < d.size then .error (.tooLarge d.size)
  else if maxNestingDepth < d.depth then .error (.tooDeep d.depth)
  else .ok ()

/-- Whether two documents have equal identifiers and equal fields. -/
def equals (a b : Document) : Bool :=
  a.id == b.id && Value.equalFields a.fields b.fields

/-- The fields as JSON; the identifier is left out. -/
def toJson (d : Document) : Json :=
  Fields.toJson d.fields

/-- A document of its own identifier, with the fields that a JSON value holds. -/
def ofJson (id : DocumentId) (json : Json) : Except DocumentError Document :=
  (Fields.ofJson json).map fun fields => { id := id, fields := fields }

/-- Set a value at a path, in place: the document as it is afterwards, and whether it was refused. -/
def assignPath (path : String) (value : Value) (d : Document) : Document × Except DocumentError Unit :=
  let (fields, outcome) := Fields.assignPath path value d.fields
  ({ d with fields := fields }, outcome)

/-- The document with a value set at a path, if it is not refused. -/
def setPath (path : String) (value : Value) (d : Document) : Except DocumentError Document :=
  match d.assignPath path value with
  | (d, .ok ()) => .ok d
  | (_, .error e) => .error e

end Document
end MediaCatalogue
