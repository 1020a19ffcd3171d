import MediaCatalogue.CommandLine.Command
import MediaCatalogue.CommandLine.Interaction
import MediaCatalogue.Content.Json
import MediaCatalogue.Json.Reader
import MediaCatalogue.Query.Parameters

/-!
# Running commands

The settings are read before anything else is done. A command with a query reads the query before its input
file. Content is printed as indented JSON, and so is a compiled filter.
-/

set_option autoImplicit false

namespace MediaCatalogue.CommandLine

/-! ## Attributes -/

/-- A text with spaces after it, up to a width. -/
def padTo (width : Nat) (s : String) : String :=
  s ++ String.ofList (List.replicate (width - s.length) ' ')

/-- One line of the table of attributes, in columns. -/
def attributeLine (name entity values field : String) : String :=
  padTo 32 name ++ " " ++ padTo 14 entity ++ " " ++ padTo 10 values ++ " " ++ field ++ "\n"

/-- The table of all attributes under its heading. -/
def attributeTable : String :=
  attributeLine "ATTRIBUTE" "ENTITY" "VALUES" "FIELD" ++
    String.join (Attribute.all.map fun a =>
      attributeLine a.name a.target.name (a.valueKind.name ++ if a.collection then "[]" else "") a.field)

/-! ## Queries -/

/-- The report that prints JSON over several lines. -/
def jsonReport (j : Json) : Report :=
  .success (j.pretty ++ "\n")

/-- The report that prints content as JSON. -/
def contentsReport (cs : List Content) : Report :=
  jsonReport (.array (Content.allToJson cs))

/-- Read the content in a text: a list of content in JSON. -/
def contentsOfText? (text : String) : Option (List Content) :=
  (Json.read text).bind (Content.contentsOfJson? .alone)

/-- Do something with the query that parameters make, or report why they make none. -/
def withQuery (parameters : List String) (next : Query → Interaction) : Interaction :=
  match Query.ofParameters parameters with
  | .error e => .failed "Invalid query" [e.message]
  | .ok q => next q

/-- Do something with the content in a file. -/
def withContents (path : String) (next : List Content → Interaction) : Interaction :=
  .read path fun
    | .text s =>
      match contentsOfText? s with
      | some cs => next cs
      | none => .failed ("Failed to parse content from: " ++ path)
    | _ => .failed ("Failed to read input file: " ++ path)

/-- Write content one after another, up to the first that fails. -/
def writeAll : List Content → Repository → Except Failure Repository
  | [], r => .ok r
  | c :: cs, r =>
    match r.write c with
    | (_, .error e) => .error ⟨"Failed to store " ++ c.uri, e.message :: e.causes⟩
    | (r, .ok ()) => writeAll cs r

/-- Do something with a service on the content in a file. -/
def withService (s : Settings) (path : String) (next : Service → Interaction) : Interaction :=
  withContents path fun cs =>
    match writeAll cs {} with
    | .error f => .done { exitCode := 1, failure := some f }
    | .ok r =>
      match s.service r with
      | .error e => .failed e.message
      | .ok service => next service

/-- Print what a query found. -/
def answered : Except DiscoveryError (List Content) → Interaction
  | .ok cs => .done (contentsReport cs)
  | .error e => .failed e.message e.causes

/-! ## Settings -/

/-- Do something with the settings in a file; they are the defaults if it is not there. -/
def withSettings (path : String) (next : Settings → Interaction) : Interaction :=
  let go (content : Option String) : Interaction :=
    match Settings.ofFile content with
    | .ok s => next s
    | .error .unreadable => .failed ("Failed to parse config file: " ++ path)
    | .error (.invalid e) => .failed ("Invalid config file: " ++ path) [e.message]
  .read path fun
    | .absent => go none
    | .text s => go (some s)
    | .unreadable => .failed ("Failed to read config file: " ++ path)

/-- Do something with the text of settings. -/
def withText (s : Settings) (next : String → Interaction) : Interaction :=
  match s.toText? with
  | some text => next text
  | none => .failed "Failed to serialize configuration"

/-- Write the default settings to a file. -/
def writeDefaults (path : String) : Interaction :=
  withText {} fun text => .write path text fun
    | .ok () => .done (.success ("✓ Wrote default configuration to " ++ path ++ "\n"))
    | .error (.directory parent) => .failed ("Failed to create config directory: " ++ parent)
    | .error (.file reason) => .failed ("Failed to write config file: " ++ path) [reason]

/-! ## Commands -/

/-- What a command does, with the settings and the path of their file. -/
def Command.interaction (settings : Settings) (settingsPath : String) : Command → Interaction
  | .attributes => .done (.success attributeTable)
  | .compile parameters =>
    withQuery parameters fun q =>
      match q.compile with
      | .ok filter => .done (jsonReport (Fields.toJson filter))
      | .error e => .failed e.message
  | .trim input parameters keepNonMatching =>
    withQuery parameters fun q =>
      withContents input fun cs => .done (contentsReport (q.trim (!keepNonMatching) cs))
  | .discover input parameters =>
    withQuery parameters fun q =>
      withService settings input fun service => answered (service.discover 0 q).2
  | .uri input uris parameters =>
    withQuery parameters fun q =>
      withService settings input fun service => answered (service.findByUris 0 uris q).2
  | .showSettings =>
    withText settings fun text => .done (.success ("# " ++ settingsPath ++ "\n" ++ text))
  | .writeSettings output force =>
    let path := output.getD settingsPath
    .read path fun content =>
      if content ≠ .absent ∧ !force then
        .failed (path ++ " already exists (use --force to overwrite)")
      else writeDefaults path
  | .validateSettings =>
    match settings.validate with
    | .ok () => .done (.success ("✓ " ++ settingsPath ++ " is valid\n"))
    | .error e => .failed e.message

/-- The name and version of the program. -/
def versionText : String :=
  "mediastore-admin 0.2.0\n"

/-- How the program is used. -/
def helpText : String :=
  "Media content query tool\n\n" ++
  "Usage: mediastore-admin [OPTIONS] <COMMAND>\n\n" ++
  "Commands:\n" ++
  "  attributes                          List queryable attributes\n" ++
  "  compile [-w PARAM]...               Print the store filter compiled from a query\n" ++
  "  trim -i FILE [-w PARAM]... [--keep-non-matching]\n" ++
  "                                      Trim content read from a JSON file\n" ++
  "  discover -i FILE [-w PARAM]...      Run a discover query over the content of a JSON file\n" ++
  "  uri -i FILE URI... [-w PARAM]...    Fetch content of a JSON file by uri, curie or alias\n" ++
  "  config show                         Show the effective configuration\n" ++
  "  config init [-o FILE] [-f]          Write a default configuration file\n" ++
  "  config validate                     Validate the configuration file\n\n" ++
  "Options:\n" ++
  "  -c, --config FILE                   Configuration file path\n" ++
  "  -v, --verbose                       Verbose output\n" ++
  "  -h, --help                          Print help\n" ++
  "  -V, --version                       Print version\n"

/-- What the program does with its arguments; `settingsPath` is where the settings are if they do not say. -/
def interaction (settingsPath : String) (texts : List String) : Interaction :=
  match Invocation.ofArguments settingsPath texts with
  | .error .misuse => .done { exitCode := 2 }
  | .error .help => .done (.success helpText)
  | .error .version => .done (.success versionText)
  | .ok i => withSettings i.settingsPath fun s => i.command.interaction s i.settingsPath

end MediaCatalogue.CommandLine
