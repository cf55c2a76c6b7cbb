/-
# Texts

A text is the list of its characters.  Tokens are cut, joined and compared in every stage, and on
lists those operations are the library's own (`++`, `flatten`, `take`, `getLast?`), so their laws
come for free; strings appear only where a finished line leaves the program.

A text is fed to the scanner as a list of UNITS.  A unit is what a dialect compares: usually one
character, but any text is allowed, also the empty one, since units are only compared and joined.
-/

namespace SharpForms

/-- A text, as the list of its characters. -/
abbrev Text := List Char

namespace Text

/-- The characters of a text as units of one character each. -/
def units (t : Text) : List Text := t.map fun c => [c]

/-- Cutting into units goes text by text. -/
@[simp] theorem units_append (t u : Text) : units (t ++ u) = units t ++ units u := by
  simp [units]

/-- The decimal text of an integer. -/
def ofInt (n : Int) : Text := (toString n).toList

/-- The decimal text of an integer, or the word for a number that is not known. -/
def ofIntOrNone : Option Int → Text
  | some n => ofInt n
  | none => "None".toList

/-- One of the ten digits; characters outside ASCII that count as digits elsewhere are not. -/
def isDigit (c : Char) : Bool := '0' ≤ c && c ≤ '9'

/-- A text filled up with a character to a given length; a longer text stays as it is. -/
def padRight (t : Text) (fill : Char) (width : Nat) : Text :=
  t ++ List.replicate (width - t.length) fill

end Text

end SharpForms
