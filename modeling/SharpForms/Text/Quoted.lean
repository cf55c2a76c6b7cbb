/-
# Quoted texts, as messages and token lists show them

A text is shown between apostrophes, unless it holds an apostrophe and no double quote; then the
double quotes save an escape.  Inside, the backslash and the quote in use get a backslash, the
three common controls are spelled by letter, and a character that does not print is spelled by
its number in the shortest of the widths two, four and eight.
-/
import SharpForms.Text.Hex
import SharpForms.Text.Unprintable

namespace SharpForms.Text

/-- The apostrophe. -/
def apostrophe : Char := '\x27'

/-- The quote that shows a text with the fewest escapes; of two that tie, the apostrophe. -/
def quoteFor (t : Text) : Char :=
  if t.contains apostrophe && !t.contains '"' then '"' else apostrophe

/-- A character spelled by its number. -/
def numberEscape (c : Char) : Text :=
  if c.toNat < 0x100 then '\\' :: 'x' :: hex 2 c.toNat
  else if c.toNat < 0x10000 then '\\' :: 'u' :: hex 4 c.toNat
  else '\\' :: 'U' :: hex 8 c.toNat

/-- One character inside a text that is shown between two quotes `q`. -/
def quotedChar (q c : Char) : Text :=
  if c = q ∨ c = '\\' then ['\\', c]
  else if c = '\n' then ['\\', 'n']
  else if c = '\r' then ['\\', 'r']
  else if c = '\t' then ['\\', 't']
  else if isUnprintable c then numberEscape c
  else [c]

/-- A text as messages and token lists show it. -/
def quoted (t : Text) : Text :=
  let q := quoteFor t
  q :: t.flatMap (quotedChar q) ++ [q]

/-- The items of a list, separated by commas. -/
def commaJoined (items : List Text) : Text := List.intercalate [',', ' '] items

/-- A list between square brackets. -/
def listed (items : List Text) : Text := '[' :: commaJoined items ++ [']']

end SharpForms.Text
