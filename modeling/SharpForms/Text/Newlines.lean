/-
# Line ends

Files end their lines with a line feed, a carriage return, or both.  A text that comes from a file
has one kind of line end, the line feed, whatever the file had.
-/
import SharpForms.Text

namespace SharpForms.Text

/-- Every line end becomes a line feed: a pair of carriage return and line feed is one, and so is
either alone. -/
def unifyNewlines : Text → Text
  | [] => []
  | '\r' :: '\n' :: rest => '\n' :: unifyNewlines rest
  | c :: rest => (if c = '\r' then '\n' else c) :: unifyNewlines rest

end SharpForms.Text
