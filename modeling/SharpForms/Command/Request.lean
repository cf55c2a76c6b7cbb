/-
# What a command line asks for

A command line names a stage first among its words, and paths behind it.  Each of the three options
may be given once.  Asking for help or for the version comes before everything else, whatever else
is on the line, as long as the line can be split at all.
-/
import SharpForms.Command.Arguments
import SharpForms.Pipeline

namespace SharpForms

/-- The word that names a stage. -/
def Stage.word : Stage → Text
  | .tokenize => "tokenize".toList
  | .read => "read".toList
  | .parse => "parse".toList

/-- The stage that a word names. -/
def Stage.named? (t : Text) : Option Stage :=
  [Stage.tokenize, .read, .parse].find? fun s => s.word == t

namespace Command

/-! ## 1. The options and the words about them -/

/-- The expression given on the line itself. -/
def stringOption : Text := "--string".toList

/-- Results are printed back out. -/
def notationOption : Text := "--notation".toList

/-- Every stage is traced. -/
def debugOption : Text := "--debug".toList

/-- The options of the command, in the order of its help. -/
def options : List Opt :=
  [⟨some 's', some stringOption, true⟩,
   ⟨some 'n', some notationOption, false⟩,
   ⟨some 'd', some debugOption, false⟩]

/-- How the command is used. -/
def usage : Text :=
  ("Usage:\n" ++
   "    fcread tokenize [options] [<path>...]\n" ++
   "    fcread read     [options] [<path>...]\n" ++
   "    fcread parse    [options] [<path>...]").toList

/-- What the command says about itself. -/
def help : Text :=
  " fcread tokenize, read, and parse fc notation\n\n".toList ++ usage ++
  ("\n\nOptions:\n" ++
   "    -s --string=EXPR    read the expression from a string instead\n" ++
   "    -n --notation       print results back out as notation\n" ++
   "    -d --debug          trace every stage").toList

/-- The name and version of the command. -/
def version : Text := "fcread 0.1.0".toList

/-! ## 2. Requests -/

/-- A run of one stage: over the expression if one is given, else over the paths. -/
structure Request where
  stage : Stage
  expression : Option Text := none
  printBack : Bool := false
  debug : Bool := false
  paths : List Text := []
  deriving DecidableEq, Repr

/-- What a command line asks for. -/
inductive Wish where
  | help
  | version
  | usage (error : Option ArgumentError)
  | run (request : Request)
  deriving DecidableEq, Repr

/-- One of the names was given, and with something. -/
def asksFor (names : List Text) (items : List Item) : Bool :=
  names.any fun name => (values name items).any Value.isSet

/-- Every option given is one of the command's, and none is given twice. -/
def optionsFit (items : List Item) : Bool :=
  let names := optionNames items
  names.all (fun n => (options.map Opt.name).contains n && names.count n == 1)

/-- The text that an option was given. -/
def givenText (name : Text) (items : List Item) : Option Text :=
  (values name items).findSome? fun
    | .text t => some t
    | .on => none

/-- The request behind the items of a line, if they make one. -/
def request? (items : List Item) : Option Request :=
  match words items with
  | [] => none
  | word :: paths =>
    if optionsFit items then
      (Stage.named? word).map fun stage =>
        { stage
          expression := givenText stringOption items
          printBack := !(values notationOption items).isEmpty
          debug := !(values debugOption items).isEmpty
          paths }
    else none

/-- What a command line asks for. -/
def wish (arguments : List Text) : Wish :=
  match split options arguments with
  | .error e => .usage (some e)
  | .ok items =>
    if asksFor ["-h".toList, "--help".toList] items then .help
    else if asksFor ["--version".toList] items then .version
    else match request? items with
      | some r => .run r
      | none => .usage none

end Command

end SharpForms
