import MediaCatalogue.Text.Split

/-!
# Arguments

The arguments of a command are options, operands, and the name of a command below it with the arguments of
that. An option is given by its name after two dashes, or by its letter after one; several letters can stand
after one dash. The value of an option follows an equals sign, or the letter itself, or is the next argument,
which must not look like an option then. After an argument of two dashes there are operands only.

Arguments are read from left to right, and the first that is refused or asks for something else decides.
-/

set_option autoImplicit false

namespace MediaCatalogue.CommandLine

/-- Why arguments name no command to run: they are refused, or ask for the help text or the version. -/
inductive Stop where
  | misuse
  | help
  | version
deriving DecidableEq

/-- What becomes of an option that is given: it is noted, it takes a text or a path, or nothing else
matters. -/
inductive OptionEffect where
  | noted
  | takesText
  | takesPath
  | stops (reason : Stop)
deriving DecidableEq

/-- Whether a value belongs to the option. -/
def OptionEffect.takesValue : OptionEffect → Bool
  | .takesText => true
  | .takesPath => true
  | _ => false

/-- An option: its name, its letter if it has one, and whether it may be given more than once. -/
structure OptionForm where
  name : String
  letter : Option Char := none
  effect : OptionEffect := .noted
  isRepeatable : Bool := false
deriving DecidableEq

/-- The option that asks for the help text. -/
def OptionForm.help : OptionForm :=
  { name := "help", letter := some 'h', effect := .stops .help }

/-- The option that asks for the version. -/
def OptionForm.version : OptionForm :=
  { name := "version", letter := some 'V', effect := .stops .version }

/-- What a command understands: options, the names of commands below it, and perhaps operands. -/
structure Grammar where
  options : List OptionForm := []
  commands : List String := []
  takesOperands : Bool := false

/-- The arguments of a command: the options with their values and the operands, as they were given, and the
command below with what follows its name. -/
structure Arguments where
  options : List (String × String) := []
  operands : List String := []
  command : Option (String × List String) := none

namespace Arguments

/-- Whether an option was given. -/
def has (name : String) (a : Arguments) : Bool :=
  a.options.any fun o => o.1 == name

/-- The values of an option. -/
def values (name : String) (a : Arguments) : List String :=
  (a.options.filter fun o => o.1 == name).map Prod.snd

/-- The value of an option that is given once. -/
def value? (name : String) (a : Arguments) : Option String :=
  (a.values name).head?

/-- Take note of an option with its value. A path is not empty. -/
def addOption (o : OptionForm) (value : String) (a : Arguments) : Except Stop Arguments :=
  match o.effect with
  | .stops reason => .error reason
  | effect =>
    if effect = .takesPath ∧ value.isEmpty then .error .misuse
    else if a.has o.name && !o.isRepeatable then .error .misuse
    else .ok { a with options := a.options ++ [(o.name, value)] }

end Arguments

namespace Grammar

/-- The option of a name. -/
def named? (name : String) (s : Grammar) : Option OptionForm :=
  s.options.find? fun o => o.name == name

/-- The option of a letter. -/
def lettered? (letter : Char) (s : Grammar) : Option OptionForm :=
  s.options.find? fun o => o.letter == some letter

/-- Read letters after a dash: the arguments with their options, and the last option if its value is the
next argument. -/
def readLetters (s : Grammar) (a : Arguments) :
    List Char → Except Stop (Arguments × Option OptionForm)
  | [] => .ok (a, none)
  | c :: cs =>
    match s.lettered? c with
    | none => .error .misuse
    | some o =>
      if o.effect.takesValue then
        match cs with
        | [] => .ok (a, some o)
        | '=' :: value => (a.addOption o (String.ofList value)).map fun a => (a, none)
        | value => (a.addOption o (String.ofList value)).map fun a => (a, none)
      else
        match a.addOption o "" with
        | .error e => .error e
        | .ok a => s.readLetters a cs

/-- Read a name after two dashes, with a value after an equals sign. -/
def readNamed (s : Grammar) (a : Arguments) (text : String) :
    Except Stop (Arguments × Option OptionForm) :=
  let (name, value) := match Text.splitOnce? '=' text with
    | some (name, value) => (name, some value)
    | none => (text, none)
  match s.named? name, value with
  | none, _ => .error .misuse
  | some o, some value =>
    if o.effect.takesValue then (a.addOption o value).map fun a => (a, none) else .error .misuse
  | some o, none =>
    if o.effect.takesValue then .ok (a, some o) else (a.addOption o "").map fun a => (a, none)

/-- Whether an argument can only be an option. -/
def looksLikeOption (text : String) : Bool :=
  text != "-" && text.toList.head? == some '-'

/-- Take note of operands; a command that has none refuses any. -/
def takeOperands (s : Grammar) (a : Arguments) (texts : List String) : Except Stop Arguments :=
  if s.takesOperands || texts.isEmpty then .ok { a with operands := a.operands ++ texts }
  else .error .misuse

/-- Read arguments, after those in `a` and perhaps an option that waits for its value. -/
def readFrom (s : Grammar) (a : Arguments) (waiting : Option OptionForm) :
    List String → Except Stop Arguments
  | [] => if waiting.isSome then .error .misuse else .ok a
  | text :: texts =>
    match waiting with
    | some o =>
      if looksLikeOption text then .error .misuse
      else
        match a.addOption o text with
        | .error e => .error e
        | .ok a => s.readFrom a none texts
    | none =>
      if s.commands.contains text then .ok { a with command := some (text, texts) }
      else if text = "--" then s.takeOperands a texts
      else if looksLikeOption text then
        let read := match text.toList with
          | '-' :: '-' :: name => s.readNamed a (String.ofList name)
          | letters => s.readLetters a letters.tail
        match read with
        | .error e => .error e
        | .ok (a, waiting) => s.readFrom a waiting texts
      else
        match s.takeOperands a [text] with
        | .error e => .error e
        | .ok a => s.readFrom a none texts

/-- Read the arguments of a command from the first to the last. -/
def read (s : Grammar) (texts : List String) : Except Stop Arguments :=
  s.readFrom {} none texts

end Grammar
end MediaCatalogue.CommandLine
