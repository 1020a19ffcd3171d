import MediaCatalogue.Content.Vocabulary
import MediaCatalogue.Query.Constraint
import MediaCatalogue.Store.Selection

/-!
# Queries

A query is a conjunction of constraints, restricted to some publishers if it names any, and a window on
the results.
-/

set_option autoImplicit false

namespace MediaCatalogue

/-- Constraints, publishers and a window; without publishers named, all are allowed. -/
structure Query where
  constraints : List Constraint := []
  publishers : Option (List Publisher) := none
  selection : Selection := {}
  matchesNothing : Bool := false

/-- Publishers in the order of their vocabulary, each once. -/
def Publisher.inOrder (ps : List Publisher) : List Publisher :=
  Vocabulary.all.filter ps.contains

namespace Query

/-- The query that nothing can answer. -/
def nothing : Query :=
  { matchesNothing := true }

/-- The query restricted to some publishers, in place of a restriction that it had. -/
def withPublishers (ps : List Publisher) (q : Query) : Query :=
  { q with publishers := some (Publisher.inOrder ps) }

/-- The constraints that may reject a result. -/
def hard (q : Query) : List Constraint :=
  q.constraints.filter fun c => !c.soft

/-- The constraints that only narrow what is nested. -/
def softConstraints (q : Query) : List Constraint :=
  q.constraints.filter fun c => c.soft

/-- Whether results of a publisher are allowed; those without a publisher never are. -/
def allowsPublisher (publisher : Option Publisher) (q : Query) : Bool :=
  match publisher, q.publishers with
  | none, _ => false
  | some _, none => true
  | some p, some allowed => allowed.contains p

/-- How a query is shown. -/
def display (q : Query) : String :=
  if q.matchesNothing then "MATCHES_NOTHING"
  else
    "[" ++ String.intercalate ", " (q.constraints.map Constraint.display) ++ "]" ++
      match q.publishers with
      | some ps => " publishers=" ++ String.intercalate "," (ps.map Vocabulary.key)
      | none => ""

end Query
end MediaCatalogue
