/-
# The command

Reads the files that the line names and what waits on standard input, runs the line, prints its
report and exits.
-/
import SharpForms.Command.Run

open SharpForms SharpForms.Command

/-- The file behind a path, or none if it cannot be read. -/
def fetch (path : FilePath) : IO (Option ByteArray) := do
  try
    return some (← IO.FS.readBinFile (String.ofList path.text))
  catch _ =>
    return none

/-- What waits on standard input; nothing does on a terminal. -/
def waiting : IO (Option ByteArray) := do
  let input ← IO.getStdin
  if ← input.isTty then return none
  return some (← input.readBinToEnd)

/-- What a request needs from outside. -/
def surroundings (arguments : List Text) : IO Surroundings := do
  match wish arguments with
  | .run r =>
    let paths := r.paths.map FilePath.ofText
    let files ← paths.mapM fun p => return (p, ← fetch p)
    let input ← if r.expression.isNone && r.paths.isEmpty then waiting else pure none
    return ⟨fun p => (files.lookup p).join, input⟩
  | _ => return ⟨fun _ => none, none⟩

/-- The last line of a run that was cut short. -/
def lastWords : Failure → String
  | .source .notFound => "no such file"
  | .source .notUtf8 => "not UTF-8"
  | .read e => e.message
  | .walk e => e.message false

def main (arguments : List String) : IO UInt32 := do
  let arguments := arguments.map String.toList
  let report := run arguments (← surroundings arguments)
  (← IO.getStdout).putStr (String.ofList report.out)
  (← IO.getStderr).putStr (String.ofList report.err)
  match report.ending with
  | .aborted why => IO.eprintln (lastWords why)
  | _ => pure ()
  return report.ending.exitCode.toUInt32
