import MediaCatalogue.Query.Compile
import MediaCatalogue.Query.Trim
import MediaCatalogue.Repository.Basic

/-!
# Answering queries

A query is compiled to a filter document, the content that matches it is fetched, and what is found is
trimmed to what the query asks for. Content can also be asked for by uris; it is answered in the order of
the request and may be trimmed in the same way. The publishers whose content may be seen at all can be
limited.
-/

set_option autoImplicit false

namespace MediaCatalogue

/-- How queries are answered: with how many results at most, whether a query by uris drops what does not
match, and for which publishers, if not for all. -/
structure Discovery where
  maxResults : Nat := 20000
  filterUriQueries : Bool := false
  allowedPublishers : Option (List Publisher) := none

/-- Why a query was not answered. -/
inductive DiscoveryError where
  | query (e : QueryError)
  | repository (e : RepositoryError)

/-- What is said of a query that was not answered. -/
def DiscoveryError.message : DiscoveryError → String
  | .query e => "Query error: " ++ e.message
  | .repository e => "Content store error: " ++ e.message

/-- Restrict a filter document to some publishers. A condition that it has on the publisher stays beside
the restriction, as another clause. -/
def restrictToPublishers (publishers : List Publisher) (filter : Fields Value) : Fields Value :=
  let restriction := operatorValue "$in" (.array (publishers.map fun p => .string (Vocabulary.key p)))
  match Fields.get? "publisher" filter with
  | none => Fields.insert "publisher" restriction filter
  | some condition =>
    let clauses := [operatorValue "publisher" condition, operatorValue "publisher" restriction]
    let filter := Fields.erase "publisher" filter
    match Fields.get? "$and" filter with
    | some (.array present) => Fields.insert "$and" (.array (present ++ clauses)) filter
    | _ => Fields.insert "$and" (.array clauses) filter

/-- The place in a request of the first uri that names content; the end if none does. -/
def requestPosition (uris : List String) (c : Content) : Nat :=
  (uris.findIdx? c.described.isKnownAs).getD uris.length

/-- Content in the order in which it was asked for; what the uris do not name comes last. -/
def inRequestOrder (uris : List String) (cs : List Content) : List Content :=
  cs.mergeSort fun a b => requestPosition uris a ≤ requestPosition uris b

namespace Discovery

/-- The query with its publishers narrowed to those that are allowed. -/
def restrict (d : Discovery) (q : Query) : Query :=
  match d.allowedPublishers with
  | none => q
  | some allowed =>
    match q.publishers with
    | some requested => q.withPublishers (requested.filter allowed.contains)
    | none => q.withPublishers allowed

/-- The filter document of a query, with its publishers. -/
def filter (q : Query) : Except QueryError (Fields Value) :=
  q.compile.map fun compiled =>
    match q.publishers with
    | some ps => restrictToPublishers ps compiled
    | none => compiled

/-- The content that a query describes: restricted, fetched within the window and the limit, then
trimmed. A query that nothing can answer does not reach the repository. -/
def discover (d : Discovery) (q : Query) (r : Repository) :
    Repository × Except DiscoveryError (List Content) :=
  if q.matchesNothing then (r, .ok [])
  else
    let q := d.restrict q
    match filter q with
    | .error e => (r, .error (.query e))
    | .ok f =>
      let (r, found) := r.discover d.maxResults f q.selection
      match found with
      | .error e => (r, .error (.repository e))
      | .ok cs => (r, .ok (q.trim true cs))

/-- The content that uris name, in the order of the request. -/
def findByUris (d : Discovery) (uris : List String) (q : Query) (r : Repository) :
    Repository × Except DiscoveryError (List Content) :=
  if q.matchesNothing then (r, .ok [])
  else
    let q := d.restrict q
    let (r, found) := r.findByUris uris
    match found with
    | .error e => (r, .error (.repository e))
    | .ok cs => (r, .ok (inRequestOrder uris (q.trim d.filterUriQueries cs)))

end Discovery
end MediaCatalogue
