import MediaCatalogue.Document.Basic
import MediaCatalogue.Store.Matching
import MediaCatalogue.Store.Selection

/-!
# Collections

A collection holds documents in the order in which they were stored and counts the searches and the
changes made to it. Every operation is a function from the collection before to the collection after
and the outcome, so that what a failed operation leaves behind can be seen.
-/

set_option autoImplicit false

namespace MediaCatalogue

/-- Why an operation on a collection failed. -/
inductive StoreError where
  | filter (e : FilterError)
  | document (e : DocumentError)

/-- What is said of an operation that failed. -/
def StoreError.message : StoreError → String
  | .filter e => "Invalid filter: " ++ e.message
  | .document e => "Invalid document: " ++ e.message

/-- A change to the documents that match: all fields replaced, or single paths set in order. -/
inductive Update where
  | replace (document : Document)
  | set (fields : Fields Value)

/-- What an update did. -/
structure UpdateResult where
  matched : Nat := 0
  modified : Nat := 0
  upserted : Option DocumentId := none
deriving DecidableEq

/-- Documents in the order in which they were stored, with the number of searches and of changes, and of
the identifiers made up so far. -/
structure Collection where
  documents : List Document := []
  reads : Nat := 0
  writes : Nat := 0
  generated : Nat := 0

/-- Set values at paths one after another, up to the first that cannot be set. -/
def Document.setPaths : List (String × Value) → Document → Except DocumentError Document
  | [], d => .ok d
  | (path, value) :: rest, d =>
    match d.setPath path value with
    | .ok d => setPaths rest d
    | .error e => .error e

/-- The document after an update, if it may be stored. -/
def Update.apply (u : Update) (d : Document) : Except DocumentError Document :=
  match u with
  | .replace replacement =>
    let d := { d with fields := replacement.fields }
    d.validate.map fun _ => d
  | .set fields =>
    match Document.setPaths fields d with
    | .error e => .error e
    | .ok d => d.validate.map fun _ => d

namespace Collection

/-- Store a document behind the others, if it may be stored. -/
def insert (d : Document) (c : Collection) : Collection × Except StoreError DocumentId :=
  match d.validate with
  | .error e => (c, .error (.document e))
  | .ok () => ({ c with documents := c.documents ++ [d], writes := c.writes + 1 }, .ok d.id)

/-- The documents that match a filter, through a window. -/
def find (filter : Fields Value) (s : Selection) (c : Collection) :
    Collection × Except StoreError (List Document) :=
  match Filter.ofFields filter with
  | .error e => (c, .error (.filter e))
  | .ok f =>
    ({ c with reads := c.reads + 1 }, .ok (s.apply (c.documents.filter fun d => f.isMatch d.fields)))

/-- The first document that matches a filter. -/
def findOne (filter : Fields Value) (c : Collection) :
    Collection × Except StoreError (Option Document) :=
  let (c, found) := c.find filter { limit := some 1 }
  (c, found.map List.head?)

/-- Update the documents that match, all of them or only the first. The documents come back as they are
when the update is over, also when it failed on the way, with what it did so far. -/
def updateMatching (f : Filter) (u : Update) (multi : Bool) (result : UpdateResult) :
    List Document → List Document × UpdateResult × Option DocumentError
  | [] => ([], result, none)
  | d :: ds =>
    if f.isMatch d.fields then
      let result := { result with matched := result.matched + 1 }
      match u.apply d with
      | .error e => (d :: ds, result, some e)
      | .ok updated =>
        let changed := !updated.equals d
        let here := if changed then updated else d
        let result := { result with modified := result.modified + if changed then 1 else 0 }
        if multi then
          let (rest, result, error) := updateMatching f u multi result ds
          (here :: rest, result, error)
        else (here :: ds, result, none)
    else
      let (rest, result, error) := updateMatching f u multi result ds
      (d :: rest, result, error)

/-- The entries of a filter document that a new document can start from: plain values at paths. -/
def seedEntries (filter : Fields Value) : List (String × Value) :=
  filter.filter fun (name, value) =>
    !Filter.isOperator name &&
      match value with
      | .object _ => false
      | .regex _ _ => false
      | _ => true

/-- The document that an update stores when nothing matches: the replacement, or a new document that
starts from the filter. -/
def upsertDocument (filter : Fields Value) (u : Update) (id : DocumentId) :
    Except DocumentError Document :=
  match u with
  | .replace replacement => u.apply replacement
  | .set _ =>
    match Document.setPaths (seedEntries filter) ⟨id, []⟩ with
    | .error e => .error e
    | .ok d => u.apply d

/-- Update the documents that match a filter, all of them or only the first, or store a new document if
none does and `upsert` is set. -/
def update (filter : Fields Value) (u : Update) (upsert multi : Bool) (c : Collection) :
    Collection × Except StoreError UpdateResult :=
  match Filter.ofFields filter with
  | .error e => (c, .error (.filter e))
  | .ok f =>
    let (documents, result, error) := updateMatching f u multi {} c.documents
    let c := { c with documents := documents }
    match error with
    | some e => (c, .error (.document e))
    | none =>
      if result.matched = 0 ∧ upsert then
        match upsertDocument filter u (.generated c.generated) with
        | .error e => (c, .error (.document e))
        | .ok d =>
          let made := match d.id with
            | .generated _ => 1
            | .ofKey _ => 0
          ({ c with
              documents := c.documents ++ [d]
              writes := c.writes + 1
              generated := c.generated + made },
            .ok { result with upserted := some d.id })
      else ({ c with writes := c.writes + if 0 < result.modified then 1 else 0 }, .ok result)

/-- Remove the documents that match a filter, and count them. -/
def remove (filter : Fields Value) (c : Collection) : Collection × Except StoreError Nat :=
  match Filter.ofFields filter with
  | .error e => (c, .error (.filter e))
  | .ok f =>
    let kept := c.documents.filter fun d => !f.isMatch d.fields
    let removed := c.documents.length - kept.length
    ({ c with documents := kept, writes := c.writes + if 0 < removed then 1 else 0 }, .ok removed)

end Collection
end MediaCatalogue
