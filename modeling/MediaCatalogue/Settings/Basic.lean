import MediaCatalogue.Json.Structure
import MediaCatalogue.Repository.Service
import MediaCatalogue.Text.Casing

/-!
# Settings

The settings of the service, in two sections: how queries are answered, and what is logged. A section or
field that is missing has its default; one that is not known is passed over.
-/

set_option autoImplicit false

namespace MediaCatalogue

/-- How much is logged. -/
inductive LogLevel where
  | error
  | warn
  | info
  | debug
  | trace
deriving DecidableEq

/-- The levels of the log with their names in settings. -/
instance : Vocabulary LogLevel where
  all := [.error, .warn, .info, .debug, .trace]
  key
    | .error => "error"
    | .warn => "warn"
    | .info => "info"
    | .debug => "debug"
    | .trace => "trace"

/-- The name of a level, in capitals. -/
def LogLevel.name (l : LogLevel) : String :=
  Text.upper (Vocabulary.key l)

/-- The level of a name in any letter case; an unknown name stands for `info`. -/
def LogLevel.ofName (s : String) : LogLevel :=
  ((Vocabulary.all : List LogLevel).find? fun l => l.name == Text.upper s).getD .info

/-- The form of the log. -/
inductive LogFormat where
  | text
  | json
deriving DecidableEq

/-- The forms of the log with their names in settings. -/
instance : Vocabulary LogFormat where
  all := [.text, .json]
  key
    | .text => "text"
    | .json => "json"

/-- How queries are answered. -/
structure QuerySettings where
  maxResults : Nat := 20000
  filterUriQueries : Bool := false
  allowedPublishers : List String := []
  slowQueryThreshold : Nat := 100
deriving DecidableEq

/-- What is logged. -/
structure LogSettings where
  level : LogLevel := .info
  format : LogFormat := .text
deriving DecidableEq

/-- The settings of the service. -/
structure Settings where
  query : QuerySettings := {}
  log : LogSettings := {}
deriving DecidableEq

/-- Why settings are refused. -/
inductive SettingsError where
  | noResults
  | unknownPublisher (key : String)

/-- What is said of settings that are refused. -/
def SettingsError.message : SettingsError → String
  | .noResults => "Max results cannot be 0"
  | .unknownPublisher key => "Unknown publisher: " ++ key

namespace Settings

/-- Look up the publishers of keys. -/
def publishersOfKeys : List String → Except SettingsError (List Publisher)
  | [] => .ok []
  | key :: keys =>
    match Vocabulary.ofKey? key with
    | none => .error (.unknownPublisher key)
    | some p =>
      match publishersOfKeys keys with
      | .error e => .error e
      | .ok ps => .ok (p :: ps)

/-- The publishers whose content may be seen, if not all. -/
def allowedPublishers (s : Settings) : Except SettingsError (Option (List Publisher)) :=
  if s.query.allowedPublishers.isEmpty then .ok none
  else (publishersOfKeys s.query.allowedPublishers).map some

/-- Whether the settings make sense. -/
def validate (s : Settings) : Except SettingsError Unit :=
  if s.query.maxResults = 0 then .error .noResults
  else s.allowedPublishers.map fun _ => ()

/-- The record of slow queries that the settings ask for. -/
def slowQueries (s : Settings) : SlowQueries :=
  { threshold := .millis s.query.slowQueryThreshold, enabled := true }

/-- A service on a repository, set up by the settings. -/
def service (s : Settings) (r : Repository) : Except SettingsError Service :=
  s.allowedPublishers.map fun allowed =>
    { discovery :=
        { maxResults := s.query.maxResults
          filterUriQueries := s.query.filterUriQueries
          allowedPublishers := allowed }
      repository := r
      slowQueries := s.slowQueries }

/-! ## As JSON -/

/-- Read an unsigned number of 64 bits. -/
def nat64? : Json → Option Nat
  | .int n => if 0 ≤ n ∧ n ≤ Text.maxWord then some n.toNat else none
  | _ => none

/-- Read the section on queries. -/
def queryOfJson? (j : Json) : Option QuerySettings := do
  let fields ← Json.structureFields?
    ["max_results", "filter_uri_queries", "allowed_publishers", "slow_query_threshold_ms"] j
  return {
    maxResults := ← Json.withDefault? "max_results" 20000 nat64? fields
    filterUriQueries := ← Json.withDefault? "filter_uri_queries" false Json.bool? fields
    allowedPublishers := ← Json.withDefault? "allowed_publishers" [] (Json.list? Json.string?) fields
    slowQueryThreshold := ← Json.withDefault? "slow_query_threshold_ms" 100 nat64? fields }

/-- Read the section on logging. -/
def logOfJson? (j : Json) : Option LogSettings := do
  let fields ← Json.structureFields? ["level", "format"] j
  return {
    level := ← Json.withDefault? "level" .info (Json.keyed? .alone) fields
    format := ← Json.withDefault? "format" .text (Json.keyed? .alone) fields }

/-- Read settings; every section may be missing. -/
def ofJson? (j : Json) : Option Settings := do
  let fields ← Json.structureFields? ["query", "logging"] j
  return {
    query := ← Json.withDefault? "query" {} queryOfJson? fields
    log := ← Json.withDefault? "logging" {} logOfJson? fields }

/-- The JSON form of settings, every field written. -/
def toJson (s : Settings) : Json :=
  .object [("query", .object [("max_results", .int s.query.maxResults),
      ("filter_uri_queries", .bool s.query.filterUriQueries),
      ("allowed_publishers", .array (s.query.allowedPublishers.map .string)),
      ("slow_query_threshold_ms", .int s.query.slowQueryThreshold)]),
    ("logging", .object [("level", Json.ofKeyed s.log.level), ("format", Json.ofKeyed s.log.format)])]

end Settings
end MediaCatalogue
