/-
# Sources

Where a text comes from, and the pieces in which it comes.  A reader asks for pieces of some SIZE
until it gets an empty one; what came before that is the text.  An open stream of pieces gives what
it likes.  An open text gives as many characters as were asked for.  A file is read the same way
after decoding it as UTF-8, strictly, and making its line ends one.

A size of zero asks for nothing, and a stream or file then ends before it began; a negative size,
or none, asks for everything at once.  Since a stage asks for the last piece before it says
anything about the text, a file that cannot be decoded is found out before any defect in it.
-/
import SharpForms.Text.Newlines

namespace SharpForms

/-- Why a source gives no text. -/
inductive SourceError where
  | notFound
  | notUtf8
  deriving DecidableEq, Repr

/-- Where a text comes from. -/
inductive Source where
  | pieces (reads : List Text)
  | text (t : Text)
  | file (bytes : ByteArray)
  | missing

/-- How much is asked for at a time. -/
inductive ReadSize where
  | everything
  | atMost (n : Nat)
  deriving DecidableEq, Repr

namespace ReadSize

/-- A size as a number: negative ones, and none, ask for everything. -/
def ofLimit : Option Int → ReadSize
  | none => .everything
  | some n => if n < 0 then .everything else .atMost n.toNat

/-- The size that is asked for unless another one is chosen. -/
def usual : ReadSize := .atMost 4096

end ReadSize

namespace Source

/-- A text cut into pieces of a given length; the last one may be shorter.  No piece is empty,
and with length zero there is none. -/
def chunks (n : Nat) (t : Text) : List Text :=
  if _h : n = 0 ∨ t = [] then []
  else t.take n :: chunks n (t.drop n)
termination_by t.length
decreasing_by
  simp only [not_or] at _h
  have := List.length_pos_iff.2 _h.2
  simp only [List.length_drop]
  omega

/-- The pieces of a text that is read with a given size. -/
def cut (size : ReadSize) (t : Text) : List Text :=
  match size with
  | .everything => if t.isEmpty then [] else [t]
  | .atMost n => chunks n t

/-- The text of a file, or none if its bytes are not UTF-8. -/
def decode? (bytes : ByteArray) : Option Text :=
  bytes.utf8Decode?.map fun cs => Text.unifyNewlines cs.toList

/-- The pieces that a source gives before the first empty one. -/
def reads (size : ReadSize) : Source → Except SourceError (List Text)
  | .missing => .error .notFound
  | .pieces ps => .ok (ps.takeWhile fun p => !p.isEmpty)
  | .text t => .ok (cut size t)
  | .file bytes =>
    if size = .atMost 0 then .ok []
    else match decode? bytes with
      | none => .error .notUtf8
      | some t => .ok (cut size t)

/-- Pieces of positive length make up the text. -/
theorem flatten_chunks {n : Nat} (hn : 0 < n) (t : Text) : (chunks n t).flatten = t := by
  fun_induction chunks n t with
  | case1 t h =>
    rcases h with h | rfl
    · omega
    · rfl
  | case2 t h ih => simp [ih]

end Source

end SharpForms
