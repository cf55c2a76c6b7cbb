/-
# Scanning a renamed text

The scanner asks the dialect, and only the dialect, what a unit is, so under a map that keeps
different characters different a renamed unit does to a renamed scanner what the unit does to the
scanner (`Scanner.step_rename`).  The tokens of a renamed text in the renamed dialect are the
tokens of the text, renamed and in the same places (`Dialect.tokenize_rename`).
-/
import SharpForms.Proofs.Renamed
import SharpForms.Proofs.Token.Stepping

namespace SharpForms

/-! ## 1. A scanner renamed -/

section

variable (h : Char → Char)

def Run.rename (r : Run) : Run :=
  { r with head := r.head.map h, tail := r.tail.map (List.map h) }

def Phase.rename : Phase → Phase
  | .run r => .run (r.rename h)
  | .between => .between
  | .comment => .comment

/-- The scanner with its tokens renamed, and the run that it is in the middle of. -/
def Scanner.rename (s : Scanner) : Scanner :=
  { s with phase := s.phase.rename h, found := s.found.map (Token.rename h) }

theorem Run.rename_push (r : Run) (u : Text) :
    (r.push u).rename h = (r.rename h).push (u.map h) := rfl

theorem Run.token_rename (r : Run) : (r.rename h).token = r.token.rename h := by
  simp [Run.token, Run.rename, Token.rename, Run.text, Run.units, List.map_flatten]

end

namespace Scanner

variable {h : Char → Char} {d : Dialect} {s : Scanner} {u : Text}

theorem phase_rename {p : Phase} (hp : s.phase = p) : (s.rename h).phase = p.rename h := by
  rw [← hp]
  rfl

variable (hh : Function.Injective h)
include hh

theorem advance_rename :
    (s.rename h).advance (d.rename h) (u.map h) = (s.advance d u).rename h := by
  unfold advance
  rw [Dialect.plays_rename hh]
  split <;> rfl

theorem emit_rename (t : Token) :
    (s.rename h).emit (d.rename h) (t.rename h) = (s.emit d t).rename h := by
  unfold emit
  rw [Token.rename, Dialect.inStringAfter_rename hh]
  rfl

theorem opensComment_rename :
    (s.rename h).opensComment (d.rename h) (u.map h) = s.opensComment d u := by
  unfold opensComment
  rw [Dialect.plays_rename hh]
  rfl

theorem opensHeader_rename (r : Run) :
    (s.rename h).opensHeader (d.rename h) (r.rename h) (u.map h) = s.opensHeader d r u := by
  unfold opensHeader
  rw [Dialect.plays_rename hh, Run.rename, Dialect.plays_rename hh, List.isEmpty_map]
  rfl

/-- **Whatever a unit does to a scanner, the renamed unit does to the renamed scanner.** -/
theorem step_rename : (s.rename h).step (d.rename h) (u.map h) = (s.step d u).rename h := by
  have comment : ∀ {b}, s.opensComment d u = b →
      (s.rename h).opensComment (d.rename h) (u.map h) = b := (opensComment_rename hh).trans
  have header : ∀ {r b}, s.opensHeader d r u = b →
      (s.rename h).opensHeader (d.rename h) (r.rename h) (u.map h) = b :=
    (opensHeader_rename hh _).trans
  have blank : ∀ {b}, d.isBlank u = b → (d.rename h).isBlank (u.map h) = b :=
    (Dialect.isBlank_rename hh u).trans
  have delimiter : ∀ {b}, d.isDelimiter u = b → (d.rename h).isDelimiter (u.map h) = b :=
    (Dialect.isDelimiter_rename hh u).trans
  have plays : ∀ {r t b}, d.plays r t = b → (d.rename h).plays r (t.map h) = b :=
    (Dialect.plays_rename hh _ _).trans
  have he := step_effect d s u
  generalize s.step d u = s' at he ⊢
  -- Each outcome is the outcome of the same name for the renamed unit.
  cases he with
  | skipComment hp hn =>
    rw [(Effect.skipComment (phase_rename hp) (plays hn)).eq_step, advance_rename hh]
    rfl
  | endComment hp hn =>
    rw [(Effect.endComment (phase_rename hp) (plays hn)).eq_step, advance_rename hh]
    rfl
  | startComment hp hc =>
    rw [(Effect.startComment (phase_rename hp) (comment hc)).eq_step, advance_rename hh]
    rfl
  | skipBlank hp hc hb =>
    rw [(Effect.skipBlank (phase_rename hp) (comment hc) (blank hb)).eq_step, advance_rename hh]
    rfl
  | delimiter hp hc hb hd =>
    rw [(Effect.delimiter (phase_rename hp) (comment hc) (blank hb) (delimiter hd)).eq_step,
      advance_rename hh, ← emit_rename hh]
    rfl
  | startRun hp hc hb hd =>
    rw [(Effect.startRun (phase_rename hp) (comment hc) (blank hb) (delimiter hd)).eq_step,
      advance_rename hh]
    rfl
  | header r hp hc =>
    rw [(Effect.header (r.rename h) (phase_rename hp) (header hc)).eq_step, advance_rename hh]
    rfl
  | commentAfterRun r hp hc hcomment =>
    rw [(Effect.commentAfterRun (r.rename h) (phase_rename hp) (header hc)
      (comment hcomment)).eq_step, advance_rename hh, Run.token_rename, emit_rename hh]
    rfl
  | growRun r hp hc hcomment hb hd =>
    rw [(Effect.growRun (r.rename h) (phase_rename hp) (header hc) (comment hcomment) (blank hb)
      (delimiter hd)).eq_step, advance_rename hh]
    rfl
  | glue r hp hc hcomment hbd hs =>
    rw [(Effect.glue (r.rename h) (phase_rename hp) (header hc) (comment hcomment)
      (hbd.imp blank delimiter) (plays hs)).eq_step, advance_rename hh, ← Run.rename_push,
      Run.token_rename, emit_rename hh]
  | blankAfterRun r hp hc hcomment hb hs =>
    rw [(Effect.blankAfterRun (r.rename h) (phase_rename hp) (header hc) (comment hcomment)
      (blank hb) (plays hs)).eq_step, advance_rename hh, Run.token_rename, emit_rename hh]
  | delimiterAfterRun r hp hc hcomment hb hd hs =>
    rw [(Effect.delimiterAfterRun (r.rename h) (phase_rename hp) (header hc) (comment hcomment)
      (blank hb) (delimiter hd) (plays hs)).eq_step, advance_rename hh, Run.token_rename,
      ← emit_rename hh, ← emit_rename hh]
    rfl

theorem feed_rename (us : List Text) :
    (s.rename h).feed (d.rename h) (us.map (List.map h)) = (s.feed d us).rename h := by
  induction us generalizing s with
  | nil => rfl
  | cons u us ih => rw [List.map_cons, feed_cons, feed_cons, step_rename hh, ih]

theorem finish_rename : (s.rename h).finish (d.rename h) = (s.finish d).rename h := by
  unfold finish
  cases hp : s.phase with
  | between | comment => rw [phase_rename hp]; rfl
  | run r =>
    rw [phase_rename hp]
    exact (congrArg _ (Run.token_rename h r)).trans (emit_rename hh _)

end Scanner

/-! ## 2. Tokens -/

/-- **The tokens of a renamed text are the tokens of the text, renamed.** -/
theorem Dialect.tokenize_rename {h : Char → Char} (hh : Function.Injective h) (d : Dialect)
    (us : List Text) :
    (d.rename h).tokenize (us.map (List.map h)) = (d.tokenize us).map (Token.rename h) := by
  have hinit : ({} : Scanner).rename h = {} := rfl
  unfold tokenize
  rw [← hinit, Scanner.feed_rename hh, Scanner.finish_rename hh, hinit, Scanner.tokens,
    Scanner.tokens, List.map_reverse]
  rfl

end SharpForms
