import MediaCatalogue.CommandLine.FileTree
import MediaCatalogue.CommandLine.Report

/-!
# Interactions

A command is described by what it does with files, one step after another, and what it reports in the end.
The description can be followed on a tree of files, and so can all that a command does be computed.
-/

set_option autoImplicit false

namespace MediaCatalogue.CommandLine

/-- What a command does with files, depending on what it finds there. -/
inductive Interaction where
  | done (report : Report)
  | read (path : String) (next : FileContent → Interaction)
  | write (path text : String) (next : Except WriteError Unit → Interaction)

namespace Interaction

/-- Do on a tree of files what a command does: the tree afterwards, and the report. -/
def follow (t : FileTree) : Interaction → FileTree × Report
  | .done report => (t, report)
  | .read path next => (next (t.read path)).follow t
  | .write path text next =>
    match t.write path text with
    | .ok t => (next (.ok ())).follow t
    | .error e => (next (.error e)).follow t

/-- Do nothing but report a failure. -/
def failed (message : String) (causes : List String := []) : Interaction :=
  .done (.failed message causes)

end Interaction
end MediaCatalogue.CommandLine
