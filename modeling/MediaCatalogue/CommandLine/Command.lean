import MediaCatalogue.CommandLine.Arguments

/-!
# Commands

The commands list the attributes, compile a query, trim content or look it up in a file, and show, write or
check the settings. The path of the settings file and the wish for more log stand before the command.
-/

set_option autoImplicit false

namespace MediaCatalogue.CommandLine

/-- A command, with the parameters of its query and the files it works on. -/
inductive Command where
  | attributes
  | compile (parameters : List String)
  | trim (input : String) (parameters : List String) (keepNonMatching : Bool)
  | discover (input : String) (parameters : List String)
  | uri (input : String) (uris parameters : List String)
  | showSettings
  | writeSettings (output : Option String) (force : Bool)
  | validateSettings
deriving DecidableEq

/-- A command and the path of the settings file to go by. -/
structure Invocation where
  settingsPath : String
  isVerbose : Bool := false
  command : Command
deriving DecidableEq

/-- The path of the settings file if none is given. -/
def defaultSettingsPath : String :=
  "mediastore.toml"

/-- The names of the commands. -/
def commandNames : List String :=
  ["attributes", "compile", "trim", "discover", "uri", "config"]

/-- The names of the commands on settings, which stand below `config`. -/
def settingsCommandNames : List String :=
  ["show", "init", "validate"]

/-- The option for a parameter of the query. -/
def whereOption : OptionForm :=
  { name := "where", letter := some 'w', effect := .takesText, isRepeatable := true }

/-- The option for the file with the content. -/
def inputOption : OptionForm :=
  { name := "input", letter := some 'i', effect := .takesPath }

/-- What is understood before a command. -/
def topGrammar : Grammar :=
  { options := [{ name := "config", letter := some 'c', effect := .takesPath },
      { name := "verbose", letter := some 'v' }, .help, .version]
    commands := commandNames ++ ["help"] }

/-- What is understood before a command on settings. -/
def settingsGrammar : Grammar :=
  { options := [.help], commands := settingsCommandNames ++ ["help"] }

/-- What a command without options of its own understands. -/
def plainGrammar : Grammar :=
  { options := [.help] }

/-- The value of a path that must be given. -/
def requirePath (name : String) (a : Arguments) : Except Stop String :=
  match a.value? name with
  | some path => .ok path
  | none => .error .misuse

/-- What is asked for by the names after `help`: each must be a command below the one before. -/
def readHelp (names : List String) : List String → Stop
  | [] => .help
  | name :: rest =>
    if name = "config" ∧ names.contains name then readHelp settingsCommandNames rest
    else if names.contains name || name = "help" then readHelp [] rest
    else .misuse

/-- Read a command on settings from what follows `config`. -/
def readSettingsCommand (texts : List String) : Except Stop Command := do
  let a ← settingsGrammar.read texts
  match a.command with
  | some ("show", rest) =>
    let _ ← plainGrammar.read rest
    return .showSettings
  | some ("init", rest) =>
    let a ← Grammar.read
      { options := [{ name := "output", letter := some 'o', effect := .takesPath },
          { name := "force", letter := some 'f' }, .help] } rest
    return .writeSettings (a.value? "output") (a.has "force")
  | some ("validate", rest) =>
    let _ ← plainGrammar.read rest
    return .validateSettings
  | some ("help", rest) => throw (readHelp settingsCommandNames rest)
  | _ => throw .misuse

/-- Read a command from its name and what follows it. -/
def readCommand (name : String) (texts : List String) : Except Stop Command :=
  match name with
  | "attributes" => do
    let _ ← plainGrammar.read texts
    return .attributes
  | "compile" => do
    let a ← Grammar.read { options := [whereOption, .help] } texts
    return .compile (a.values "where")
  | "trim" => do
    let a ← Grammar.read
      { options := [inputOption, whereOption, { name := "keep-non-matching" }, .help] } texts
    return .trim (← requirePath "input" a) (a.values "where") (a.has "keep-non-matching")
  | "discover" => do
    let a ← Grammar.read { options := [inputOption, whereOption, .help] } texts
    return .discover (← requirePath "input" a) (a.values "where")
  | "uri" => do
    let a ← Grammar.read { options := [inputOption, whereOption, .help], takesOperands := true } texts
    if a.operands.isEmpty then throw .misuse
    return .uri (← requirePath "input" a) a.operands (a.values "where")
  | "config" => readSettingsCommand texts
  | "help" => .error (readHelp commandNames texts)
  | _ => .error .misuse

/-- Read what is to be done from the arguments of the program. -/
def Invocation.ofArguments (settingsPath : String) (texts : List String) : Except Stop Invocation := do
  let a ← topGrammar.read texts
  match a.command with
  | none => throw .misuse
  | some (name, rest) =>
    let command ← readCommand name rest
    return { settingsPath := (a.value? "config").getD settingsPath, isVerbose := a.has "verbose", command }

end MediaCatalogue.CommandLine
