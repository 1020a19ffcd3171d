import MediaCatalogue.Record.Content
import MediaCatalogue.Store.Collection

/-!
# The repository of content

Items and containers are kept in one collection, groups in another. A container is stored with its members
in it, and each item among its members also on its own, so that conditions on items can find it. Content is
known by its canonical uri: writing it again takes the place of what is there, which must be of the same
category.

Every operation is a function from the repository before to the repository after and the outcome.
-/

set_option autoImplicit false

namespace MediaCatalogue

/-- The two collections in which content is kept. -/
structure Repository where
  content : Collection := {}
  groups : Collection := {}

/-- Why an operation on the repository failed. -/
inductive RepositoryError where
  | store (e : StoreError)
  | record (e : RecordError)
  | tooManyResults (limit : Nat)
  | kindConflict (uri existing incoming : String)

/-- What is said of an operation that failed. -/
def RepositoryError.message : RepositoryError → String
  | .store e => "Store error: " ++ e.message
  | .record e => "Codec error: " ++ e.message
  | .tooManyResults limit => s!"Too many results for query (limit {limit})"
  | .kindConflict uri existing incoming =>
    "Cannot write " ++ incoming ++ " " ++ uri ++ ": already stored as " ++ existing

/-- What may take the place of what: items of items, containers of containers. -/
inductive Category where
  | item
  | container
  | other
deriving DecidableEq

/-- The category of content that is stored under a type. -/
def Category.ofTypeName (name : String) : Category :=
  if (ItemKind.ofTypeName? name).isSome then .item
  else if (ContainerKind.ofTypeName? name).isSome then .container
  else .other

/-- The type under which a document is stored; empty if it has none. -/
def Document.typeName (d : Document) : String :=
  ((Fields.get? "type" d.fields).bind Value.string?).getD ""

/-- The filter for content of a canonical uri. -/
def uriFilter (uri : String) : Fields Value :=
  [("canonicalUri", .string uri)]

/-- The filter for content that can be found by one of some uris. -/
def lookupFilter (uris : List String) : Fields Value :=
  [("lookup", .object [("$in", .array (uris.map .string))])]

/-- Store content in a collection, in place of what is there under its canonical uri. -/
def Collection.upsert (content : Content) (c : Collection) :
    Collection × Except RepositoryError Unit :=
  let filter := uriFilter content.uri
  let document := content.toDocument
  let (c, existing) := c.findOne filter
  match existing with
  | .error e => (c, .error (.store e))
  | .ok existing =>
    let conflict := existing.bind fun d =>
      if Category.ofTypeName d.typeName = Category.ofTypeName document.typeName then none
      else some (RepositoryError.kindConflict content.uri d.typeName document.typeName)
    match conflict with
    | some e => (c, .error e)
    | none =>
      let (c, result) := c.update filter (.replace document) true false
      match result with
      | .error e => (c, .error (.store e))
      | .ok _ => (c, .ok ())

/-- Store content one after another, up to the first that fails. -/
def Collection.upsertAll : List Content → Collection → Collection × Except RepositoryError Unit
  | [], c => (c, .ok ())
  | content :: rest, c =>
    match c.upsert content with
    | (c, .error e) => (c, .error e)
    | (c, .ok ()) => c.upsertAll rest

/-- What is stored on its own for the member of a container: an item, which says where it belongs. -/
def Content.asMemberOf? (uri : String) : Content → Option Content
  | .item i => some (.item { i with container := some uri })
  | _ => none

/-- All that is stored for a piece of content: for a container its items and then itself. -/
def Content.stored (c : Content) : List Content :=
  match c with
  | .container _ members => members.filterMap (·.asMemberOf? c.uri) ++ [c]
  | c => [c]

/-- Whether content has one of some uris, be it the canonical one or an alias. -/
def Content.isKnownAsAny (uris : List String) (c : Content) : Bool :=
  c.described.uris.any uris.contains

/-- What the uris name in content that was found by them: itself, or else its first member that they name.
An item says where it belongs. -/
def Content.named (uris : List String) (c : Content) : Content :=
  if c.isKnownAsAny uris then c
  else match c with
    | .container about members =>
      match members.find? (·.isKnownAsAny uris) with
      | some (.item i) => .item { i with container := i.container <|> some about.described.canonicalUri }
      | some m => m
      | none => c
    | c => c

/-- Read documents one after another, up to the first that is no content. -/
def Content.ofDocuments : List Document → Except RepositoryError (List Content)
  | [] => .ok []
  | d :: ds =>
    match Content.ofDocument d with
    | .error e => .error (.record e)
    | .ok c =>
      match ofDocuments ds with
      | .error e => .error e
      | .ok cs => .ok (c :: cs)

/-- Keep of content with one canonical uri only the first. -/
def Content.distinct (seen : List String) : List Content → List Content
  | [] => []
  | c :: cs =>
    if seen.contains c.uri then distinct seen cs else c :: distinct (c.uri :: seen) cs

/-- Read documents one after another; one more than the limit is too many. -/
def Content.ofDocumentsUpTo (limit : Nat) (before : Nat) :
    List Document → Except RepositoryError (List Content)
  | [] => .ok []
  | d :: ds =>
    match Content.ofDocument d with
    | .error e => .error (.record e)
    | .ok c =>
      if limit < before + 1 then .error (.tooManyResults limit)
      else
        match ofDocumentsUpTo limit (before + 1) ds with
        | .error e => .error e
        | .ok cs => .ok (c :: cs)

/-- The documents in a collection that can be found by one of some uris, and what they name in each. -/
def Collection.findByUris (uris : List String) (c : Collection) :
    Collection × Except RepositoryError (List Content) :=
  let (c, found) := c.find (lookupFilter uris) {}
  match found with
  | .error e => (c, .error (.store e))
  | .ok ds => (c, (Content.ofDocuments ds).map fun cs => cs.map (·.named uris))

namespace Repository

/-- Create content, or replace what is there under its canonical uri. -/
def write (c : Content) (r : Repository) : Repository × Except RepositoryError Unit :=
  match c with
  | .group _ _ =>
    let (groups, outcome) := r.groups.upsertAll c.stored
    ({ r with groups := groups }, outcome)
  | c =>
    let (content, outcome) := r.content.upsertAll c.stored
    ({ r with content := content }, outcome)

/-- The content that some uris name, each piece once. -/
def findByUris (uris : List String) (r : Repository) :
    Repository × Except RepositoryError (List Content) :=
  let (content, found) := r.content.findByUris uris
  match found with
  | .error e => ({ r with content := content }, .error e)
  | .ok found =>
    let (groups, more) := r.groups.findByUris uris
    (⟨content, groups⟩, more.map fun more => Content.distinct [] (found ++ more))

/-- The content that matches a filter document, within a window and up to a limit. -/
def discover (limit : Nat) (filter : Fields Value) (s : Selection) (r : Repository) :
    Repository × Except RepositoryError (List Content) :=
  let (content, found) := r.content.find filter s
  let r := { r with content := content }
  match found with
  | .error e => (r, .error (.store e))
  | .ok ds => (r, Content.ofDocumentsUpTo limit 0 ds)

end Repository
end MediaCatalogue
