import MediaCatalogue.Repository.Discovery
import MediaCatalogue.Settings.File

/-!
# Reports

What a command has to say: a text on the standard output, or why it failed. A failure has a message and the
causes that are known of it, from the nearest to the first.
-/

set_option autoImplicit false

namespace MediaCatalogue

/-- What lies behind an error of the repository. -/
def RepositoryError.causes : RepositoryError → List String
  | .store (.filter e) => [(StoreError.filter e).message, e.message]
  | .store (.document e) => [(StoreError.document e).message, e.message]
  | .record e => [e.message]
  | _ => []

/-- What lies behind a query that was not answered. -/
def DiscoveryError.causes : DiscoveryError → List String
  | .query e => [e.message]
  | .repository e => e.message :: e.causes

namespace CommandLine

/-- Why a command failed, and the causes behind it. -/
structure Failure where
  message : String
  causes : List String := []
deriving DecidableEq

/-- A text in which every line after the first is indented, after a first indentation. -/
def indentLines (first rest text : String) : String :=
  first ++ String.intercalate ("\n" ++ rest) (Text.split '\n' text)

/-- Each cause on a line with its number, from zero. -/
def numberedCauses (causes : List String) : List String :=
  causes.zipIdx.map fun (cause, i) =>
    let number := toString i
    let padding := String.ofList (List.replicate (5 - number.length) ' ')
    indentLines (padding ++ number ++ ": ") "       " cause

/-- The text of a failure: its message and, below, its causes, which have numbers if there are several. -/
def Failure.text (f : Failure) : String :=
  let under := match f.causes with
    | [cause] => [indentLines "    " "    " cause]
    | causes => numberedCauses causes
  if f.causes.isEmpty then f.message
  else f.message ++ "\n\nCaused by:" ++ String.join (under.map ("\n" ++ ·))

/-- What a command has to say in the end. -/
structure Report where
  exitCode : Nat := 0
  output : String := ""
  failure : Option Failure := none
deriving DecidableEq

namespace Report

/-- A command did what was asked for. -/
def success (output : String) : Report :=
  { output := output }

/-- A command failed. -/
def failed (message : String) (causes : List String := []) : Report :=
  { exitCode := 1, failure := some ⟨message, causes⟩ }

end Report

end CommandLine
end MediaCatalogue
