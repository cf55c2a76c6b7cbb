/-
# JSON strings in printable ASCII

String nodes describe themselves as JSON strings that stay inside printable ASCII: five controls
have short escapes, everything else outside the printable range is spelled in UTF-16 units of four
hexadecimal digits, so a character above `U+FFFF` becomes a surrogate pair.
-/
import SharpForms.Text.Hex

namespace SharpForms.Text

/-- One UTF-16 unit, spelled by its number. -/
def unitEscape (n : Nat) : Text := '\\' :: 'u' :: hex 4 n

/-- One character inside a JSON string. -/
def jsonChar (c : Char) : Text :=
  if c = '"' ∨ c = '\\' then ['\\', c]
  else if c = '\n' then ['\\', 'n']
  else if c = '\r' then ['\\', 'r']
  else if c = '\t' then ['\\', 't']
  else if c = '\x08' then ['\\', 'b']
  else if c = '\x0c' then ['\\', 'f']
  else if 0x20 ≤ c.toNat ∧ c.toNat ≤ 0x7E then [c]
  else if c.toNat < 0x10000 then unitEscape c.toNat
  else
    let n := c.toNat - 0x10000
    unitEscape (0xD800 + n / 0x400) ++ unitEscape (0xDC00 + n % 0x400)

/-- A text as a JSON string. -/
def jsonString (t : Text) : Text := '"' :: t.flatMap jsonChar ++ ['"']

end SharpForms.Text
