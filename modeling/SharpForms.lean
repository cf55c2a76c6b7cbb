import SharpForms.Datum
import SharpForms.Main
import SharpForms.Node.Equality
import SharpForms.Proofs.Alike
import SharpForms.Proofs.Command.Loop
import SharpForms.Proofs.Command.Paths
import SharpForms.Proofs.Datum.Comparison
import SharpForms.Proofs.Datum.Content
import SharpForms.Proofs.Datum.Filing
import SharpForms.Proofs.Dialect.Distinct
import SharpForms.Proofs.Dialect.Regular
import SharpForms.Proofs.Expression.Desugared
import SharpForms.Proofs.Expression.Eval
import SharpForms.Proofs.Expression.Joined
import SharpForms.Proofs.Expression.TagTable
import SharpForms.Proofs.Expression.Trace
import SharpForms.Proofs.Form.Alike
import SharpForms.Proofs.Form.Blanks
import SharpForms.Proofs.Form.Commented
import SharpForms.Proofs.Form.Defects
import SharpForms.Proofs.Form.Descent
import SharpForms.Proofs.Form.Extent
import SharpForms.Proofs.Form.Grammar
import SharpForms.Proofs.Form.Joined
import SharpForms.Proofs.Form.Printed
import SharpForms.Proofs.Form.ReadBack
import SharpForms.Proofs.Form.Reading
import SharpForms.Proofs.Form.Renamed
import SharpForms.Proofs.Form.Spelling
import SharpForms.Proofs.Form.StringPieces
import SharpForms.Proofs.Form.Tiling
import SharpForms.Proofs.Form.Trace
import SharpForms.Proofs.Moved
import SharpForms.Proofs.Pipeline.Blanks
import SharpForms.Proofs.Pipeline.Failures
import SharpForms.Proofs.Pipeline.Joined
import SharpForms.Proofs.Pipeline.Pieces
import SharpForms.Proofs.Pipeline.ReadBack
import SharpForms.Proofs.Pipeline.Trace
import SharpForms.Proofs.Renamed
import SharpForms.Proofs.Source.Reading
import SharpForms.Proofs.Text.Decoding
import SharpForms.Proofs.Token.Bare
import SharpForms.Proofs.Token.Blanks
import SharpForms.Proofs.Token.Comments
import SharpForms.Proofs.Token.Coverage
import SharpForms.Proofs.Token.Invariants
import SharpForms.Proofs.Token.Joined
import SharpForms.Proofs.Token.Kept
import SharpForms.Proofs.Token.Lexeme
import SharpForms.Proofs.Token.Lexer
import SharpForms.Proofs.Token.Renamed
import SharpForms.Proofs.Token.Spaced
import SharpForms.Proofs.Token.Stepping
import SharpForms.Proofs.Token.StringFlag
import SharpForms.Proofs.Unplaced
