/-
# Brackets

The three pairs of brackets that group forms.  A dialect may give them any shape; their usual shape
is the one in which nodes are printed.
-/

namespace SharpForms

/-- The three pairs of brackets, by the shape they have in the usual dialects. -/
inductive Bracket where
  | round
  | square
  | curly
  deriving DecidableEq, Repr, Inhabited

namespace Bracket

/-- The kinds of bracket, latest first: the order in which they claim a text. -/
def latestFirst : List Bracket := [.curly, .square, .round]

/-- Every kind of bracket is searched. -/
theorem mem_latestFirst (b : Bracket) : b ∈ latestFirst := by cases b <;> decide

/-- What messages call the group that the brackets make. -/
def groupName : Bracket → String
  | .round => "list"
  | .square => "vector"
  | .curly => "map"

/-- The opening character in printed notation. -/
def openChar : Bracket → Char
  | .round => '('
  | .square => '['
  | .curly => '\x7b'

/-- The closing character in printed notation. -/
def closeChar : Bracket → Char
  | .round => ')'
  | .square => ']'
  | .curly => '\x7d'

end Bracket

end SharpForms
