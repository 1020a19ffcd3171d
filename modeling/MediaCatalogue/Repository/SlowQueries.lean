/-!
# Slow queries

Queries that take at least a given time are remembered, the last thousand of them.
-/

set_option autoImplicit false

namespace MediaCatalogue

/-- A query that was answered: its text, its kind, and how many results it had. -/
structure AnsweredQuery where
  text : String
  kind : String
  results : Nat
deriving DecidableEq

/-- How long a query may take without being slow. -/
inductive Threshold where
  | millis (n : Nat)
  | never
deriving DecidableEq

/-- Whether a time is slow. -/
def Threshold.isReached (elapsed : Nat) : Threshold → Bool
  | .millis n => n ≤ elapsed
  | .never => false

/-- The threshold in milliseconds, as a number of 64 bits; the longest time does not fit and shows its last
64 bits. -/
def Threshold.toMillis : Threshold → Nat
  | .millis n => n
  | .never => 18446744073709551615999 % 18446744073709551616

/-- The slow queries of a session, the oldest first. -/
structure SlowQueries where
  threshold : Threshold
  enabled : Bool
  queries : List AnsweredQuery := []

namespace SlowQueries

/-- The number of queries that are remembered. -/
def capacity : Nat := 1000

/-- Remember nothing. -/
def disabled : SlowQueries :=
  { threshold := .never, enabled := false }

/-- Take note of a query that took a number of milliseconds. -/
def finish (elapsed : Nat) (q : AnsweredQuery) (s : SlowQueries) : SlowQueries :=
  if s.enabled && s.threshold.isReached elapsed then
    let queries := s.queries ++ [q]
    { s with queries := queries.drop (queries.length - capacity) }
  else s

/-- The latest slow queries, the newest first. -/
def latest (limit : Nat) (s : SlowQueries) : List AnsweredQuery :=
  s.queries.reverse.take limit

/-- Forget the queries so far. -/
def clear (s : SlowQueries) : SlowQueries :=
  { s with queries := [] }

end SlowQueries
end MediaCatalogue
