/-
# From text to tokens, forms and expressions

The three stages one after the other, with the trace of all of them in order: first the tokens,
then the forms, then the expressions.  Each stage takes its text from a list of units or from a
source that gives it in pieces.
-/
import SharpForms.Expression.Walk
import SharpForms.Form.Reader
import SharpForms.Source
import SharpForms.Token.Scanner

namespace SharpForms

/-- Why a text has no expressions. -/
inductive Failure where
  | source (e : SourceError)
  | read (e : ReadError)
  | walk (e : WalkError)
  deriving Repr

/-- What a stage gives: tokens, or nodes. -/
inductive Product where
  | tokens (ts : List Token)
  | nodes (ns : List Node)
  deriving Repr

/-- How far a text is taken. -/
inductive Stage where
  | tokenize
  | read
  | parse
  deriving DecidableEq, Repr

namespace Dialect

variable (d : Dialect)

/-- The tokens of a text that comes in pieces of characters, traced. -/
def scanPieces (pieces : List Text) : Traced Failure (List Token) :=
  let ts := d.tokenizePieces (pieces.map Text.units)
  (Traced.done ts).emit (.tokens ts)

/-- The tokens of a text, traced. -/
def scan (us : List Text) : Traced Failure (List Token) :=
  let ts := d.tokenize us
  (Traced.done ts).emit (.tokens ts)

/-- The forms of a token list, traced. -/
def forms (ts : List Token) : Traced Failure (List Node) := (d.read ts).mapError .read

end Dialect

/-- The expressions of forms, traced. -/
def Rules.expressions (r : Rules) (ns : List Node) : Traced Failure (List Node) :=
  (r.walkAll ns).mapError .walk

namespace Stage

variable (d : Dialect) (r : Rules)

/-- What a stage makes of the tokens of a text. -/
def ofTokens (stage : Stage) (ts : List Token) : Traced Failure Product :=
  match stage with
  | .tokenize => .done (.tokens ts)
  | .read => (d.forms ts).map .nodes
  | .parse => ((d.forms ts).andThen r.expressions).map .nodes

/-- What a stage makes of a text. -/
def run (stage : Stage) (us : List Text) : Traced Failure Product :=
  (d.scan us).andThen (stage.ofTokens d r)

/-- What a stage makes of the text that a source gives in pieces of some size. -/
def runSource (stage : Stage) (size : ReadSize) (s : Source) : Traced Failure Product :=
  match s.reads size with
  | .error e => .fail (.source e)
  | .ok pieces => (d.scanPieces pieces).andThen (stage.ofTokens d r)

end Stage

end SharpForms
