import MediaCatalogue.CommandLine.Run

/-!
# The program

The program follows the interaction that its arguments ask for on the files of the machine.
-/

set_option autoImplicit false

namespace MediaCatalogue.CommandLine

/-- Look at what is at a path. A path on which something is not a directory leads to nothing; a path to a
directory (code 21) leads to something that has no text. -/
def readPath (path : String) : IO FileContent := do
  try
    return .text (← IO.FS.readFile path)
  catch
    | .noFileOrDirectory _ _ _ => return .absent
    | .inappropriateType _ 21 _ => return .unreadable
    | .inappropriateType _ _ _ => return .absent
    | _ => return .unreadable

/-- Why the machine refuses to write a file. -/
def refusal : IO.Error → String
  | .permissionDenied _ _ _ => "Permission denied (os error 13)"
  | .inappropriateType _ 21 _ => "Is a directory (os error 21)"
  | .inappropriateType _ _ _ => "Not a directory (os error 20)"
  | e => toString e

/-- Write a text to a path, and make the directory for it. -/
def writePath (path text : String) : IO (Except WriteError Unit) := do
  let parent := (parentPath? path).getD ""
  try
    unless parent.isEmpty do IO.FS.createDirAll parent
  catch _ => return .error (.directory parent)
  try
    IO.FS.writeFile path text
    return .ok ()
  catch e => return .error (.file (refusal e))

/-- Follow an interaction on the files of the machine. -/
def Interaction.perform : Interaction → IO Report
  | .done report => return report
  | .read path next => do (next (← readPath path)).perform
  | .write path text next => do (next (← writePath path text)).perform

end MediaCatalogue.CommandLine

open MediaCatalogue.CommandLine in
/-- Run the program. -/
def main (args : List String) : IO UInt32 := do
  let settingsPath := (← IO.getEnv "MEDIASTORE_CONFIG").getD defaultSettingsPath
  let report ← (interaction settingsPath args).perform
  IO.print report.output
  if let some failure := report.failure then
    IO.eprintln ("Error: " ++ failure.text)
  else if report.exitCode ≠ 0 then
    IO.eprint helpText
  return report.exitCode.toUInt32
