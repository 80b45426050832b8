import ReportQuery.Command.Run

set_option autoImplicit false
set_option relaxedAutoImplicit false

/-!
The program: it reads the files that a command line names, runs the command and prints its output.
-/

namespace ReportQuery

open Command (Action Invocation Surroundings)

/-- The files that a command reads. -/
def Command.Action.files : Action → List String
  | .compile path => [path]
  | .validate _ file? => file?.toList
  | .run arguments => arguments.file?.toList ++ arguments.description?.toList
  | .version | .showMetadata _ | .showTable _ => []

/-- The text of a file by its path, if it is there. -/
def readFile? (path : String) : IO (Option (String × String)) := do
  try
    let text ← IO.FS.readFile path
    return some (path, text)
  catch _ => return none

end ReportQuery

open ReportQuery in
/-- Runs the command line. -/
def main (words : List String) : IO UInt32 := do
  let paths :=
    ((Command.Invocation.read? words).map fun invocation => invocation.action.files).getD []
  let files ← paths.filterMapM readFile?
  let url? ← IO.getEnv "ADHOCQL_URL"
  let surroundings : Command.Surroundings := {
    file? := fun path => files.lookup path
    environment? := fun name => if name = "ADHOCQL_URL" then url? else none
  }
  let outcome := Command.execute surroundings words
  IO.print outcome.output
  return outcome.exitCode.toUInt32
