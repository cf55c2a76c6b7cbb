/-
# Running a command line

A run works off its sources one by one: the expression on the line if there is one, else the paths,
else what waits on standard input.  A source that has a defect leaves one line of complaint and the
run goes on; a source that cannot be read at all ends it there.  Nothing that one source does can
change what another one prints, so the output of a run is put together from the reports of its
sources.

Everything a run needs from outside is given to it: the file behind each path and what waits on
standard input.  The paths come with home directories already put in their places, so a name that
has none cannot stop a run here.
-/
import SharpForms.Command.FilePath
import SharpForms.Command.Settings
import SharpForms.Dialect.Table
import SharpForms.Node.Printed

namespace SharpForms.Command

/-! ## 1. What a run is given and what it gives -/

/-- What is outside: the file behind a path, and what waits on standard input. -/
structure Surroundings where
  file? : FilePath → Option ByteArray
  input : Option ByteArray

/-- How a run, or one source of it, ended. -/
inductive Ending where
  | succeeded
  | failed
  | aborted (why : Failure)
  deriving Repr

/-- What is printed, what is complained about, and how it ended. -/
structure Report where
  out : Text := []
  err : Text := []
  ending : Ending := .succeeded
  deriving Repr

namespace Ending

/-- The run goes on. -/
def goesOn : Ending → Bool
  | .aborted _ => false
  | _ => true

/-- A failure stays, whatever comes after it, unless the run is cut short. -/
def andThen : Ending → Ending → Ending
  | .succeeded, e => e
  | .aborted why, _ => .aborted why
  | .failed, .succeeded => .failed
  | .failed, e => e

/-- The exit code of a run that was not cut short. -/
def exitCode : Ending → Nat
  | .succeeded => 0
  | _ => 1

end Ending

namespace Report

/-- One report after another; nothing comes after one that was cut short. -/
def andThen (r s : Report) : Report :=
  if r.ending.goesOn then ⟨r.out ++ s.out, r.err ++ s.err, r.ending.andThen s.ending⟩ else r

/-- Reports in order. -/
def inOrder : List Report → Report
  | [] => {}
  | r :: rs => r.andThen (inOrder rs)

end Report

/-! ## 2. One source -/

/-- Where a text comes from. -/
inductive Input where
  | expression (t : Text)
  | source (s : Source)

/-- A text and what complaints call it. -/
structure NamedInput where
  name : Text
  input : Input

/-- A line of output. -/
def line (t : Text) : Text := t ++ ['\n']

/-- Sources are read in the dialect for texts that span lines. -/
def dialect : Dialect := Table.lines.dialect

/-- The usual rules; descriptions carry bounds in a traced run. -/
def rules (r : Request) : Rules := { Rules.usual with withBounds := r.debug }

/-- What the stage makes of an input. -/
def product (r : Request) : Input → Traced Failure Product
  | .expression t => r.stage.run dialect (rules r) t.units
  | .source s => r.stage.runSource dialect (rules r) .usual s

/-- A product as it is printed.  Tokens are shown as a list in any case. -/
def printProduct (r : Request) : Product → Text
  | .tokens ts => Token.showAll ts
  | .nodes ns => if r.printBack then Node.printAll ns else Node.describeAll r.debug ns

/-- A complaint about a defect in a text; other failures cut the run short. -/
def complaint? (r : Request) : Failure → Option Text
  | .read (.emptyTag _) => none
  | .read e => some e.message.toList
  | .walk e@(.unknownTag ..) => some (e.message r.debug).toList
  | _ => none

/-- The printed trace. -/
def trace (r : Request) (events : List Event) : Text :=
  if r.debug then events.flatMap fun e => line e.line else []

/-- The report of one source. -/
def report (r : Request) (i : NamedInput) : Report :=
  let made := product r i.input
  let traced := trace r made.events
  match made.result with
  | .ok p => ⟨traced ++ line (printProduct r p), [], .succeeded⟩
  | .error f =>
    match complaint? r f with
    | some c => ⟨traced, line (i.name ++ ": ".toList ++ c), .failed⟩
    | none => ⟨traced, [], .aborted f⟩

/-! ## 3. All sources -/

/-- The file behind a path, which is taken as it is. -/
def fileInput (s : Surroundings) (t : Text) : NamedInput :=
  let path := FilePath.ofText t
  ⟨path.text, .source (match s.file? path with
    | some bytes => .file bytes
    | none => .missing)⟩

/-- The sources of a request. -/
def inputs (r : Request) (s : Surroundings) : List NamedInput :=
  match r.expression with
  | some t => [⟨"<string>".toList, .expression t⟩]
  | none =>
    if r.paths.isEmpty then
      match s.input with
      | some bytes => [⟨"<stdin>".toList, .source (.file bytes)⟩]
      | none => []
    else r.paths.map (fileInput s)

/-- The table of arguments, in a traced run. -/
def preamble (r : Request) : Report := { out := if r.debug then line (settingsTable r) else [] }

/-- Runs a request. -/
def runRequest (r : Request) (s : Surroundings) : Report :=
  (preamble r).andThen (.inOrder ((inputs r s).map (report r)))

/-- Runs a command line. -/
def run (arguments : List Text) (s : Surroundings) : Report :=
  match wish arguments with
  | .help => { out := line help }
  | .version => { out := line version }
  | .usage e => { err := (e.elim [] fun e => line e.message) ++ line usage, ending := .failed }
  | .run r => runRequest r s

end SharpForms.Command
