/-
# Fixed-width hexadecimal

Escapes name a character by a fixed number of lower-case hexadecimal digits.
-/
import SharpForms.Text

namespace SharpForms.Text

/-- The last `width` hexadecimal digits of a number, most significant first. -/
def hex : (width : Nat) → (n : Nat) → Text
  | 0, _ => []
  | width + 1, n => hex width (n / 16) ++ [Nat.digitChar (n % 16)]

end SharpForms.Text
