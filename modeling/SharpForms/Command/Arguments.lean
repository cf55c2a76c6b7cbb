/-
# Arguments of a command line

Splits arguments into words and options.  A long option may be written by any unique start of its
name and takes its value behind `=` or from the next argument; short options may share a dash, and
the first one that takes a value takes the rest of the cluster, or else the next argument.  Two
dashes alone end the options, and are a word themselves.

An option that nobody knows is no error yet.  It is remembered as a switch, or as an option with a
value if it came with one, so that a later start of its name finds it.  Whether it was wanted is
for the caller to say.
-/
import SharpForms.Text

namespace SharpForms.Command

/-! ## 1. Options and what is found -/

/-- An option that arguments may name.  A long name includes its dashes. -/
structure Opt where
  short : Option Char
  long : Option Text
  takesValue : Bool
  deriving DecidableEq, Repr

/-- What ends the options, unless an option waits for a value: then it is that value, like any other
argument. -/
def twoDashes : Text := ['-', '-']

/-- A short option as it is written alone. -/
def dashed (c : Char) : Text := ['-', c]

/-- The name that an option goes by: the long one if it has one. -/
def Opt.name (o : Opt) : Text :=
  match o.long, o.short with
  | some l, _ => l
  | none, some c => dashed c
  | none, none => []

/-- What an option was given. -/
inductive Value where
  | on
  | text (t : Text)
  deriving DecidableEq, Repr

/-- The empty text counts as nothing given. -/
def Value.isSet : Value → Bool
  | .on => true
  | .text t => !t.isEmpty

/-- A word, or an option under its own name. -/
inductive Item where
  | word (t : Text)
  | option (name : Text) (value : Value)
  deriving DecidableEq, Repr

/-- Why arguments cannot be split. -/
inductive ArgumentError where
  | missingValue (name : Text)
  | unwantedValue (name : Text)
  | ambiguous (typed : Text) (candidates : List Text)
  deriving DecidableEq, Repr

/-- The error in words. -/
def ArgumentError.message : ArgumentError → Text
  | .missingValue name => name ++ " requires argument".toList
  | .unwantedValue name => name ++ " must not have an argument".toList
  | .ambiguous typed candidates =>
    typed ++ " is not a unique prefix: ".toList ++
      List.intercalate ", ".toList candidates ++ ['?']

/-! ## 2. One argument -/

/-- An option that waits for its value: its name, and how it was written. -/
structure Waiting where
  name : Text
  written : Text
  deriving DecidableEq, Repr

/-- What one argument adds: options to remember, items, and perhaps an option that waits. -/
structure Found where
  known : List Opt
  items : List Item
  waiting : Option Waiting
  deriving DecidableEq, Repr

/-- The part of a long option before `=`, and the value behind it if there is a `=`. -/
def splitValue (t : Text) : Text × Option Text :=
  (t.takeWhile (· != '='), if t.contains '=' then some ((t.dropWhile (· != '=')).drop 1) else none)

/-- The options that a long name, typed in full or by its start, can mean.  A full name means
itself, even if others start with it. -/
def meanings (known : List Opt) (typed : Text) : List Opt :=
  match known.filter fun o => o.long == some typed with
  | [] => known.filter fun o => o.long.any typed.isPrefixOf
  | os => os

/-- A long option. -/
def longOption (known : List Opt) (argument : Text) : Except ArgumentError Found :=
  let (typed, value) := splitValue argument
  match meanings known typed with
  | [] =>
    let item := Item.option typed (value.elim .on .text)
    .ok ⟨known ++ [⟨none, some typed, value.isSome⟩], [item], none⟩
  | [o] =>
    match o.takesValue, value with
    | true, none => .ok ⟨known, [], some ⟨o.name, o.name⟩⟩
    | true, some v => .ok ⟨known, [.option o.name (.text v)], none⟩
    | false, none => .ok ⟨known, [.option o.name .on], none⟩
    | false, some _ => .error (.unwantedValue o.name)
  | os => .error (.ambiguous typed (os.map Opt.name))

/-- A cluster of short options behind one dash. -/
def shortOptions (known : List Opt) : List Char → Found
  | [] => ⟨known, [], none⟩
  | c :: rest =>
    match known.find? fun o => o.short == some c with
    | none =>
      let later := shortOptions (known ++ [⟨some c, none, false⟩]) rest
      { later with items := .option (dashed c) .on :: later.items }
    | some o =>
      if o.takesValue then
        if rest.isEmpty then ⟨known, [], some ⟨o.name, dashed c⟩⟩
        else ⟨known, [.option o.name (.text rest)], none⟩
      else
        let later := shortOptions known rest
        { later with items := .option o.name .on :: later.items }

/-- An argument that starts with a dash. -/
def dashArgument (known : List Opt) (argument : Text) : Except ArgumentError Found :=
  if twoDashes.isPrefixOf argument then longOption known argument
  else .ok (shortOptions known (argument.drop 1))

/-! ## 3. All arguments -/

/-- Splits the arguments that follow, while an option may be waiting for its value. -/
def splitFrom (known : List Opt) (waiting : Option Waiting) :
    List Text → Except ArgumentError (List Item)
  | [] =>
    match waiting with
    | none => .ok []
    | some w => .error (.missingValue w.written)
  | argument :: rest =>
    match waiting with
    | some w => do
      return .option w.name (.text argument) :: (← splitFrom known none rest)
    | none =>
      if argument = twoDashes then .ok ((argument :: rest).map .word)
      else if argument.head? = some '-' ∧ argument ≠ ['-'] then do
        let found ← dashArgument known argument
        return found.items ++ (← splitFrom found.known found.waiting rest)
      else do
        return .word argument :: (← splitFrom known none rest)

/-- Splits arguments into words and options. -/
def split (known : List Opt) (arguments : List Text) : Except ArgumentError (List Item) :=
  splitFrom known none arguments

/-- The words among the items. -/
def words (items : List Item) : List Text :=
  items.filterMap fun
    | .word t => some t
    | .option .. => none

/-- What options of a name were given, in order. -/
def values (name : Text) (items : List Item) : List Value :=
  items.filterMap fun
    | .word _ => none
    | .option n v => if n = name then some v else none

/-- The names of the options given, in order. -/
def optionNames (items : List Item) : List Text :=
  items.filterMap fun
    | .word _ => none
    | .option n _ => some n

end SharpForms.Command
