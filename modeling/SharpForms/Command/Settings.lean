/-
# The table of arguments

A traced run begins with a table of what was asked for.  Rows are the stage, the paths if there are
any, and the three options; what is set comes before what is not, and options stand by name.  A
switch shows as `x`, the paths as `_`, and an option with a value as that value.
-/
import SharpForms.Command.Request

namespace SharpForms.Command

/-- One row: a name and what is set, if anything. -/
structure Row where
  name : Text
  value : Text
  deriving DecidableEq, Repr

namespace Row

/-- A row that shows something. -/
def isSet (r : Row) : Bool := !r.value.isEmpty

/-- A switch. -/
def switch (name : Text) (on : Bool) : Row := ⟨name, if on then ['x'] else []⟩

end Row

/-- The options as rows, by name. -/
def optionRows (r : Request) : List Row :=
  [.switch debugOption r.debug, .switch notationOption r.printBack,
    ⟨stringOption, r.expression.getD []⟩]

/-- All rows, in order. -/
def rows (r : Request) : List Row :=
  .switch r.stage.word true ::
    (if r.paths.isEmpty then [] else [⟨"<path>".toList, ['_']⟩]) ++
    (optionRows r).filter Row.isSet ++ (optionRows r).filter fun row => !row.isSet

/-- The greatest length among texts. -/
def longest (ts : List Text) : Nat := (ts.map List.length).foldl max 0

/-- A rule of dashes. -/
def dashes (n : Nat) : Text := List.replicate n '-'

/-- The table, its lines joined.  Both columns are one wider than what they hold; the title stands
in the first rule. -/
def settingsTable (r : Request) : Text :=
  let heading : Row := ⟨"arg".toList, []⟩
  let body := rows r
  let a := longest ((heading :: body).map Row.name) + 1
  let v := max 1 (longest (body.map Row.value)) + 1
  let line (row : Row) : Text :=
    '|' :: ' ' :: row.name.padRight ' ' a ++ '|' :: ' ' :: row.value.padRight ' ' v ++ ['|']
  let ruleOver (left : Text) : Text :=
    '+' :: '-' :: left.padRight '-' a ++ '+' :: '-' :: dashes v ++ ['+']
  List.intercalate ['\n']
    (ruleOver "docopt args".toList :: line heading :: ruleOver [] :: body.map line ++ [ruleOver []])

end SharpForms.Command
