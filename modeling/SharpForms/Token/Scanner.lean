/-
# The scanner

Cuts the units of a text into tokens, in one pass.  Between tokens blanks drop out and delimiters
are tokens by themselves; anything else starts a RUN, which goes on to the next blank or
delimiter.  A run that starts with the sharp is a dispatch tag and takes the unit that stops it,
whatever it is, so that `#{` and `#a ` are tokens.  Outside strings a comment mark drops everything
through the next newline, and so does a sharp alone followed by the header mark.

The state is a value, so a text may come in pieces: feeding two pieces one after the other is
feeding their concatenation (`feed_append`).
-/
import SharpForms.Dialect

namespace SharpForms

/-! ## 1. The state between two units -/

/-- A run that is still growing: its first unit, the others latest first, and where it started. -/
structure Run where
  head : Text
  tail : List Text
  line : Nat
  char : Nat
  deriving DecidableEq, Repr

namespace Run

/-- The units of a run in reading order. -/
def units (r : Run) : List Text := r.head :: r.tail.reverse

/-- The run as one text. -/
def text (r : Run) : Text := r.units.flatten

/-- The run with one more unit. -/
def push (r : Run) (u : Text) : Run := { r with tail := u :: r.tail }

/-- The run as a token. -/
def token (r : Run) : Token := ⟨r.text, some r.line, some r.char⟩

@[simp] theorem text_token (r : Run) : r.token.text = r.text := rfl

theorem units_push (r : Run) (u : Text) : (r.push u).units = r.units ++ [u] := by
  simp [units, push]

@[simp] theorem text_push (r : Run) (u : Text) : (r.push u).text = r.text ++ u := by
  simp [text, units, push, List.flatten_append]

end Run

/-- What the scanner is in the middle of. -/
inductive Phase where
  | between
  | run (r : Run)
  | comment
  deriving DecidableEq, Repr

/-- The scanner between two units: what it is in the middle of, whether the tokens so far leave it
inside a string, the line and the column of the last unit, and the tokens so far, latest first. -/
structure Scanner where
  phase : Phase := .between
  inString : Bool := false
  line : Nat := 1
  col : Nat := 0
  found : List Token := []
  deriving DecidableEq, Repr

namespace Scanner

variable (d : Dialect)

/-! ## 2. One unit -/

/-- A finished token; the string flag follows it. -/
def emit (s : Scanner) (t : Token) : Scanner :=
  { s with
    phase := .between
    inString := d.inStringAfter s.inString t.text
    found := t :: s.found }

/-- Moves the position over one unit. -/
def advance (s : Scanner) (u : Text) : Scanner :=
  if d.plays .newline u then { s with line := s.line + 1, col := 0 }
  else { s with col := s.col + 1 }

@[simp] theorem phase_emit (s : Scanner) (t : Token) : (s.emit d t).phase = .between := rfl
@[simp] theorem line_emit (s : Scanner) (t : Token) : (s.emit d t).line = s.line := rfl
@[simp] theorem col_emit (s : Scanner) (t : Token) : (s.emit d t).col = s.col := rfl
@[simp] theorem found_emit (s : Scanner) (t : Token) : (s.emit d t).found = t :: s.found := rfl
@[simp] theorem inString_emit (s : Scanner) (t : Token) :
    (s.emit d t).inString = d.inStringAfter s.inString t.text := rfl

@[simp] theorem phase_advance (s : Scanner) (u : Text) : (s.advance d u).phase = s.phase := by
  unfold advance; split <;> rfl

@[simp] theorem inString_advance (s : Scanner) (u : Text) :
    (s.advance d u).inString = s.inString := by
  unfold advance; split <;> rfl

@[simp] theorem found_advance (s : Scanner) (u : Text) : (s.advance d u).found = s.found := by
  unfold advance; split <;> rfl

/-- A unit outside runs and comments: a blank, a delimiter or the start of a run.  The place is
the unit's own. -/
def start (s : Scanner) (u : Text) (line char : Nat) : Scanner :=
  if d.isBlank u then { s with phase := .between }
  else if d.isDelimiter u then s.emit d ⟨u, some line, some char⟩
  else { s with phase := .run ⟨u, [], line, char⟩ }

/-- A comment starts at this unit.  Whether it does is asked once, with the string flag as it was
before a run that the unit stops. -/
def opensComment (s : Scanner) (u : Text) : Bool := !s.inString && d.plays .comment u

/-- The unit turns a sharp that stands alone into the start of a header line. -/
def opensHeader (s : Scanner) (r : Run) (u : Text) : Bool :=
  !s.inString && r.tail.isEmpty && d.plays .sharp r.head && d.plays .header u

/-- One unit in the middle of a run.  `s` has already moved over the unit. -/
def extend (s : Scanner) (r : Run) (u : Text) (line char : Nat) : Scanner :=
  if s.opensHeader d r u then { s with phase := .comment }
  else if s.opensComment d u then { s.emit d r.token with phase := .comment }
  else if !d.isBlank u && !d.isDelimiter u then { s with phase := .run (r.push u) }
  else if d.plays .sharp r.head then s.emit d (r.push u).token
  else (s.emit d r.token).start d u line char

/-- One unit. -/
def step (s : Scanner) (u : Text) : Scanner :=
  let line := s.line
  let char := s.col + 1
  let s := s.advance d u
  match s.phase with
  | .comment => { s with phase := if d.plays .newline u then .between else .comment }
  | .run r => s.extend d r u line char
  | .between =>
    if s.opensComment d u then { s with phase := .comment }
    else s.start d u line char

/-! ## 3. Whole texts -/

/-- A stretch of units. -/
def feed (s : Scanner) (us : List Text) : Scanner := us.foldl (step d) s

@[simp] theorem feed_nil (s : Scanner) : s.feed d [] = s := rfl

@[simp] theorem feed_cons (s : Scanner) (u : Text) (us : List Text) :
    s.feed d (u :: us) = (s.step d u).feed d us := rfl

/-- Pieces fed in turn are their concatenation fed at once. -/
theorem feed_append (s : Scanner) (us vs : List Text) :
    s.feed d (us ++ vs) = (s.feed d us).feed d vs := by
  simp [feed]

/-- The end of the text finishes a run that is still growing. -/
def finish (s : Scanner) : Scanner :=
  match s.phase with
  | .run r => s.emit d r.token
  | _ => s

/-- The tokens found, in reading order. -/
def tokens (s : Scanner) : List Token := s.found.reverse

/-- A finished token comes behind those found before. -/
@[simp] theorem tokens_emit (s : Scanner) (t : Token) :
    (s.emit d t).tokens = s.tokens ++ [t] := by
  simp [tokens]

end Scanner

/-- The tokens of a text, given as units. -/
def Dialect.tokenize (d : Dialect) (us : List Text) : List Token :=
  ((({} : Scanner).feed d us).finish d).tokens

/-- The tokens of a text that comes in pieces. -/
def Dialect.tokenizePieces (d : Dialect) (pieces : List (List Text)) : List Token :=
  ((pieces.foldl (Scanner.feed d) {}).finish d).tokens

/-- It does not matter how a text is cut into pieces. -/
theorem Dialect.tokenizePieces_eq (d : Dialect) (pieces : List (List Text)) :
    d.tokenizePieces pieces = d.tokenize pieces.flatten := by
  simp only [tokenizePieces, tokenize, Scanner.feed, List.foldl_flatten]
  rfl

end SharpForms
