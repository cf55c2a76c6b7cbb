/-
# Tables of settings

A dialect is configured from a table: a list of named settings, of which a later one wins.  What a
table leaves out keeps its usual value.  Three tables come with the library: `brackets` names the
usual marks, `plain` makes the comma blank, and `lines` is for sources that span lines, with
comments and header lines.
-/
import SharpForms.Dialect

namespace SharpForms

/-! ## 1. Names of settings -/

namespace Role

/-- The roles, in the order in which tables list them. -/
def all : List Role :=
  [.space, .opener .round, .closer .round, .opener .square, .closer .square, .opener .curly,
    .closer .curly, .quote, .sharp, .newline, .comment, .header]

/-- No role is left out. -/
theorem mem_all (r : Role) : r ∈ all := by
  cases r with
  | opener b => cases b <;> decide
  | closer b => cases b <;> decide
  | _ => decide

/-- The name of a role in a table of settings. -/
def settingName : Role → String
  | .space => "t_space"
  | .opener .round => "t_beg_list_p"
  | .closer .round => "t_end_list_p"
  | .opener .square => "t_beg_list_s"
  | .closer .square => "t_end_list_s"
  | .opener .curly => "t_beg_list_c"
  | .closer .curly => "t_end_list_c"
  | .quote => "t_beg_end_str"
  | .sharp => "t_to_sharp"
  | .newline => "t_newline"
  | .comment => "t_to_comment"
  | .header => "t_to_hcom_in_shrp"

/-- The role that a name stands for. -/
def named? (name : String) : Option Role := all.find? fun r => r.settingName == name

end Role

/-- One entry of a table: a role with its text, or the texts that are blank besides the space. -/
inductive Setting where
  | mark (role : Role) (text : Option Text)
  | extraSpace (spaces : List Text)
  deriving DecidableEq, Repr

namespace Setting

/-- The name of the entry that lists further blanks. -/
def extraSpaceName : String := "additional_whitespace"

/-- The name of an entry. -/
def name : Setting → String
  | .mark role _ => role.settingName
  | .extraSpace _ => extraSpaceName

/-- A dialect with one entry changed. -/
def apply (d : Dialect) : Setting → Dialect
  | .mark role text => { d with mark := fun r => if r = role then text else d.mark r }
  | .extraSpace spaces => { d with extraSpace := spaces }

end Setting

/-! ## 2. From a table to a dialect -/

/-- The usual value of each role; there are no comments unless they are asked for. -/
def Dialect.usualMark : Role → Option Text
  | .space => some [' ']
  | .opener b => some [b.openChar]
  | .closer b => some [b.closeChar]
  | .quote => some ['"']
  | .sharp => some ['#']
  | .newline => some ['\n']
  | .comment => none
  | .header => none

/-- The dialect of the empty table. -/
def Dialect.usual : Dialect := ⟨usualMark, []⟩

/-- A table of settings. -/
abbrev Table := List Setting

namespace Table

/-- The dialect that a table describes. -/
def dialect (t : Table) : Dialect := t.foldl Setting.apply .usual

/-- The marks that every table of the library starts from. -/
def brackets : Table :=
  [Role.space, .opener .round, .closer .round, .opener .square, .closer .square, .opener .curly,
    .closer .curly, .quote, .sharp].map fun r => .mark r (Dialect.usualMark r)

/-- Commas are noise between elements. -/
def plain : Table := .extraSpace [[',']] :: brackets

/-- For sources that span lines: line ends and tabs are blank, `;` starts a comment, and a line
that starts a run with `#!` is a header. -/
def lines : Table :=
  .extraSpace [[','], ['\n'], ['\t'], ['\r']] :: brackets ++
    [.mark .comment (some [';']), .mark .header (some ['!'])]

end Table

/-- A table that cannot be used: it names a setting that does not exist. -/
inductive ConfigError where
  | unknownName (name : String)
  deriving DecidableEq, Repr

/-- What is said about a table that cannot be used. -/
def ConfigError.message : ConfigError → String
  | .unknownName name =>
    "configure() got an unexpected keyword argument '" ++ name ++ "'"

end SharpForms
