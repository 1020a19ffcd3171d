import MediaCatalogue.Settings.Basic
import MediaCatalogue.Toml.Reader
import MediaCatalogue.Toml.Writer

/-!
# Settings files

Settings are kept in a configuration file with a table for each section. What is written can be read
again; a file that is not there stands for the defaults.
-/

set_option autoImplicit false

namespace MediaCatalogue

/-- Why a settings file is refused: it cannot be read, or the settings in it make no sense. -/
inductive SettingsFileError where
  | unreadable
  | invalid (e : SettingsError)

namespace Settings

/-- The text of a settings file; there is none if a number in the settings cannot be written. -/
def toText? (s : Settings) : Option String := do
  let maxResults ← Toml.natText? s.query.maxResults
  let threshold ← Toml.natText? s.query.slowQueryThreshold
  return "[query]\n" ++
    "max_results = " ++ maxResults ++ "\n" ++
    "filter_uri_queries = " ++ Toml.boolText s.query.filterUriQueries ++ "\n" ++
    "allowed_publishers = " ++ Toml.quoteList s.query.allowedPublishers ++ "\n" ++
    "slow_query_threshold_ms = " ++ threshold ++ "\n" ++
    "\n[logging]\n" ++
    "level = " ++ Toml.quote (Vocabulary.key s.log.level) ++ "\n" ++
    "format = " ++ Toml.quote (Vocabulary.key s.log.format) ++ "\n"

/-- The JSON form of a value in a settings file: a table of one empty entry stands for the name of the entry. -/
def namedChoice : Json → Json
  | .object [(name, .object [])] => .object [(name, .null)]
  | .object [(name, .array [])] => .object [(name, .null)]
  | j => j

/-- The JSON form of a section of a settings file: what an array holds beyond the fields is passed over. -/
def fileSection (fieldCount : Nat) : Json → Json
  | .object members => .object (members.map fun m => (m.1, namedChoice m.2))
  | .array items => .array ((items.take fieldCount).map namedChoice)
  | j => j

/-- Read the values of a settings file. -/
def ofToml? (t : Toml) : Option Settings := do
  let fields ← Json.structureFields? ["query", "logging"] t.toJson
  return {
    query := ← Json.withDefault? "query" {} (queryOfJson? ∘ fileSection 4) fields
    log := ← Json.withDefault? "logging" {} (logOfJson? ∘ fileSection 2) fields }

/-- Read the text of a settings file, which has to make sense as well. -/
def ofText (text : String) : Except SettingsFileError Settings :=
  match (Toml.read text).bind ofToml? with
  | none => .error .unreadable
  | some s =>
    match s.validate with
    | .error e => .error (.invalid e)
    | .ok () => .ok s

/-- The settings in a file; without one they are the usual ones. -/
def ofFile : Option String → Except SettingsFileError Settings
  | none => .ok {}
  | some text => ofText text

end Settings
end MediaCatalogue
