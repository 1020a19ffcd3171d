import MediaCatalogue.Repository.Discovery
import MediaCatalogue.Repository.SlowQueries

/-!
# The query service

The service answers queries on a repository and takes note of the slow ones. The time that a query took is
measured outside; a query that fails or matches nothing is not noted.
-/

set_option autoImplicit false

namespace MediaCatalogue

/-- A repository, how queries on it are answered, and which were slow. -/
structure Service where
  discovery : Discovery := {}
  repository : Repository := {}
  slowQueries : SlowQueries := .disabled

namespace Service

/-- Keep the repository after an answer, and take note of the query if it was slow. What failed, or was
answered without looking, is not noted. -/
def note (elapsed : Nat) (q : Query) (text kind : String)
    (answer : Repository × Except DiscoveryError (List Content)) (s : Service) : Service :=
  let s := { s with repository := answer.1 }
  match answer.2 with
  | .error _ => s
  | .ok cs =>
    if q.matchesNothing then s
    else { s with slowQueries := s.slowQueries.finish elapsed ⟨text, kind, cs.length⟩ }

/-- Write content to the repository. -/
def write (c : Content) (s : Service) : Service × Except RepositoryError Unit :=
  let (r, outcome) := s.repository.write c
  ({ s with repository := r }, outcome)

/-- Answer a query. -/
def discover (elapsed : Nat) (q : Query) (s : Service) :
    Service × Except DiscoveryError (List Content) :=
  let answer := s.discovery.discover q s.repository
  (s.note elapsed q q.display "discover" answer, answer.2)

/-- Answer for some uris, within a query. -/
def findByUris (elapsed : Nat) (uris : List String) (q : Query) (s : Service) :
    Service × Except DiscoveryError (List Content) :=
  let answer := s.discovery.findByUris uris q s.repository
  (s.note elapsed q (String.intercalate "," uris ++ " " ++ q.display) "uri" answer, answer.2)

end Service
end MediaCatalogue
