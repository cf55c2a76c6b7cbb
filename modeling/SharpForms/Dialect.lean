/-
# Dialects

A dialect says which texts play which ROLE: the three pairs of brackets, the quote, the sharp that
starts a dispatch tag, the newline, the space, and, where the dialect has them, the comment mark
and the mark that turns a leading sharp into a header line.  A role may be left empty, and then no
text plays it.

Nothing keeps two roles apart.  When they meet, three rules decide, and everything that asks about
a token goes through them:

* of two pairs of brackets with the same opener (or closer) the later pair has it, in the order
  round, square, curly (`openerOf?`, `closerOf?`);
* the end of a dispatch region is looked up as a quote before it is looked up as an opener
  (`regionCloser?`);
* a token is an opener before it is a quote, a quote before it starts with the sharp, and that
  before it is a closer (`kind`).
-/
import SharpForms.Bracket
import SharpForms.Token

namespace SharpForms

/-! ## 1. Roles -/

/-- What a text may stand for in a dialect. -/
inductive Role where
  | space
  | opener (b : Bracket)
  | closer (b : Bracket)
  | quote
  | sharp
  | newline
  | comment
  | header
  deriving DecidableEq, Repr, Inhabited

/-- Which text plays each role, and which texts are blank besides the space. -/
structure Dialect where
  mark : Role → Option Text
  extraSpace : List Text

/-- What the reader makes of a token. -/
inductive TokenKind where
  | opener (b : Bracket)
  | quote
  | sharp
  | closer (b : Bracket)
  | leaf
  deriving DecidableEq, Repr, Inhabited

namespace Dialect

variable (d : Dialect)

/-! ## 2. Questions about one text -/

/-- The text plays the role. -/
def plays (r : Role) (t : Text) : Bool := d.mark r == some t

/-- The bracket that a text opens: of several, the latest. -/
def openerOf? (t : Text) : Option Bracket :=
  Bracket.latestFirst.find? fun b => d.plays (.opener b) t

/-- The bracket that a text closes: of several, the latest. -/
def closerOf? (t : Text) : Option Bracket :=
  Bracket.latestFirst.find? fun b => d.plays (.closer b) t

/-- The text is blank between tokens. -/
def isBlank (t : Text) : Bool := d.plays .space t || d.extraSpace.contains t

/-- The text is a token of its own and ends a run. -/
def isDelimiter (t : Text) : Bool :=
  (d.openerOf? t).isSome || (d.closerOf? t).isSome || d.plays .quote t

/-- A token that makes the scanner enter a string when it is outside one: the quote, or a dispatch
tag that ends in the quote, since the quote then closes its region. -/
def entersString (t : Text) : Bool :=
  d.plays .quote t || (d.plays .sharp (t.take 1) && d.plays .quote (t.drop (t.length - 1)))

/-- The string flag after a token: inside a string only the quote itself leaves it. -/
def inStringAfter (inString : Bool) (t : Text) : Bool :=
  if inString then !d.plays .quote t else d.entersString t

/-- What the reader makes of a token text. -/
def kind (t : Text) : TokenKind :=
  match d.openerOf? t with
  | some b => .opener b
  | none =>
    if d.plays .quote t then .quote
    else if d.plays .sharp (t.take 1) then .sharp
    else match d.closerOf? t with
      | some b => .closer b
      | none => .leaf

/-- The text that ends the region of a dispatch whose tag ends in the given text; none when the
tag has no region. -/
def regionCloser? (last : Text) : Option Text :=
  if d.plays .quote last then some last
  else (d.openerOf? last).bind fun b => d.mark (.closer b)

/-! ## 3. What the questions say about the marks -/

@[simp] theorem plays_iff (r : Role) (t : Text) : d.plays r t = true ↔ d.mark r = some t := by
  simp [plays]

theorem plays_eq_false_iff (r : Role) (t : Text) : d.plays r t = false ↔ d.mark r ≠ some t := by
  simp [plays]

/-- A text opens only a bracket that it is the opener of. -/
theorem mark_of_openerOf? {t : Text} {b : Bracket} (h : d.openerOf? t = some b) :
    d.mark (.opener b) = some t := by
  have := List.find?_some h
  simpa using this

/-- A text closes only a bracket that it is the closer of. -/
theorem mark_of_closerOf? {t : Text} {b : Bracket} (h : d.closerOf? t = some b) :
    d.mark (.closer b) = some t := by
  have := List.find?_some h
  simpa using this

/-- Every opener opens some bracket. -/
theorem openerOf?_isSome_iff (t : Text) :
    (d.openerOf? t).isSome = true ↔ ∃ b, d.mark (.opener b) = some t := by
  simp [openerOf?, Bracket.mem_latestFirst]

/-- Every closer closes some bracket. -/
theorem closerOf?_isSome_iff (t : Text) :
    (d.closerOf? t).isSome = true ↔ ∃ b, d.mark (.closer b) = some t := by
  simp [closerOf?, Bracket.mem_latestFirst]

/-- The delimiters are the openers, the closers and the quote. -/
theorem isDelimiter_iff (t : Text) :
    d.isDelimiter t = true ↔
      (∃ b, d.mark (.opener b) = some t) ∨ (∃ b, d.mark (.closer b) = some t) ∨
        d.mark .quote = some t := by
  simp only [isDelimiter, Bool.or_eq_true, openerOf?_isSome_iff, closerOf?_isSome_iff, plays_iff,
    or_assoc]

/-! ## 4. The kind of a token, read back -/

/-- Openers come first. -/
theorem kind_eq_opener_iff {t : Text} {b : Bracket} :
    d.kind t = .opener b ↔ d.openerOf? t = some b := by
  grind [kind]

/-- A quote is a quote unless it opens a bracket. -/
theorem kind_eq_quote_iff {t : Text} :
    d.kind t = .quote ↔ d.openerOf? t = none ∧ d.mark .quote = some t := by
  rw [← plays_iff]
  grind [kind]

/-- A tag starts with the sharp and is neither an opener nor the quote. -/
theorem kind_eq_sharp_iff {t : Text} :
    d.kind t = .sharp ↔
      d.openerOf? t = none ∧ d.mark .quote ≠ some t ∧ d.mark .sharp = some (t.take 1) := by
  rw [← plays_iff, Ne, ← plays_iff]
  grind [kind]

/-- Closers come after openers, the quote and tags. -/
theorem kind_eq_closer_iff {t : Text} {b : Bracket} :
    d.kind t = .closer b ↔
      d.openerOf? t = none ∧ d.mark .quote ≠ some t ∧ d.mark .sharp ≠ some (t.take 1) ∧
        d.closerOf? t = some b := by
  rw [Ne, ← plays_iff, Ne, ← plays_iff]
  grind [kind]

/-- A leaf is what is left. -/
theorem kind_eq_leaf_iff {t : Text} :
    d.kind t = .leaf ↔
      d.openerOf? t = none ∧ d.mark .quote ≠ some t ∧ d.mark .sharp ≠ some (t.take 1) ∧
        d.closerOf? t = none := by
  rw [Ne, ← plays_iff, Ne, ← plays_iff]
  grind [kind]

/-- The quote ends a region that it starts. -/
theorem regionCloser?_of_quote {t : Text} (h : d.mark .quote = some t) :
    d.regionCloser? t = some t := by
  simp [regionCloser?, h]

/-- Of other texts only the openers start a region. -/
theorem regionCloser?_of_ne_quote {t : Text} (h : d.mark .quote ≠ some t) :
    d.regionCloser? t = (d.openerOf? t).bind fun b => d.mark (.closer b) := by
  simp [regionCloser?, h]

end Dialect

end SharpForms
