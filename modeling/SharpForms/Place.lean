/-
# Places and bounds

Where a node came from: the indices of its first and last token, and the line and column of the
first.  Each number may be unknown, since nodes and tokens can be made by hand.
-/
import SharpForms.Token

namespace SharpForms

/-- Where something is, as messages name it. -/
structure Place where
  token : Option Int := none
  line : Option Int := none
  char : Option Int := none
  deriving DecidableEq, Repr, Inhabited

/-- A place in words; line and column are named only where the line is known. -/
def Place.text (p : Place) : Text :=
  match p.line with
  | none => "at token ".toList ++ Text.ofIntOrNone p.token
  | some line =>
    "at token ".toList ++ Text.ofIntOrNone p.token ++ " line ".toList ++ Text.ofInt line ++
      " char ".toList ++ Text.ofIntOrNone p.char

/-- The place of a numbered token. -/
def Cell.place (c : Cell) : Place := ⟨some c.index, c.token.line, c.token.char⟩

/-- The first and last token of a node and where the first one stands. -/
structure Bounds where
  first : Option Int := none
  last : Option Int := none
  line : Option Int := none
  char : Option Int := none
  deriving DecidableEq, Repr, Inhabited

namespace Bounds

/-- Where a node starts. -/
def place (b : Bounds) : Place := ⟨b.first, b.line, b.char⟩

/-- The bounds as descriptions of nodes carry them in a trace. -/
def text (b : Bounds) : Text :=
  " ::".toList ++ Text.ofIntOrNone b.first ++ [':'] ++ Text.ofIntOrNone b.last

end Bounds

/-- The bounds of what reaches from one token to another. -/
def Cell.boundsTo (c last : Cell) : Bounds :=
  ⟨some c.index, some last.index, c.token.line, c.token.char⟩

/-- What reaches from a token to another one starts at the first. -/
@[simp] theorem Cell.place_boundsTo (c last : Cell) : (c.boundsTo last).place = c.place := rfl

end SharpForms
