/-
# Scanning a text behind another one

A newline is blank in the dialects that the stages are used with, so it ends a run and a comment.
If the text in front of it leaves no string open and no run that would take the newline in (a run
that begins with the sharp), then behind the newline the scanner is as new, except that it counts
on: `Scanner.nextLine`.

A scanner that counts on does all that a new one does, only further down (`step_move`), and so the
tokens of the whole are those of the text in front and then those of the other text, moved:
`tokenize_nextLine`, whatever it is that ends the line, and `tokenize_append_newline`.
-/
import SharpForms.Proofs.Moved
import SharpForms.Proofs.Token.StringFlag

namespace SharpForms

/-! ## 1. A scanner moved -/

section

variable (o : Offset)

def Run.move (r : Run) : Run := { r with line := r.line + o.lines }

def Phase.move : Phase → Phase
  | .run r => .run (r.move o)
  | .between => .between
  | .comment => .comment

/-- The scanner further down, with other tokens in front of those that it has found. -/
def Scanner.move (ts : List Token) (s : Scanner) : Scanner :=
  { s with
    phase := s.phase.move o
    line := s.line + o.lines
    found := s.found.map (Token.move o) ++ ts.reverse }

theorem Run.move_push (r : Run) (u : Text) : (r.push u).move o = (r.move o).push u := rfl

theorem Run.token_move (r : Run) : (r.move o).token = r.token.move o := by
  simp [Run.token, Run.move, Token.move, Run.text, Run.units]

end

namespace Scanner

variable {d : Dialect} {o : Offset} {ts : List Token} {s s' : Scanner} {u : Text}

theorem phase_move {p : Phase} (hp : s.phase = p) : (s.move o ts).phase = p.move o := by
  rw [← hp]
  rfl

@[simp] theorem tokens_move : (s.move o ts).tokens = ts ++ s.tokens.map (Token.move o) := by
  simp [tokens, move]

@[simp] theorem advance_move : (s.move o ts).advance d u = (s.advance d u).move o ts := by
  unfold advance
  split
  · simp [move, Nat.add_right_comm]
  · rfl

@[simp] theorem emit_move (t : Token) :
    (s.move o ts).emit d (t.move o) = (s.emit d t).move o ts := rfl

/-- **Whatever a unit does to a scanner, it does further down.** -/
theorem step_move : (s.move o ts).step d u = (s.step d u).move o ts := by
  have he := step_effect d s u
  generalize s.step d u = s' at he ⊢
  -- Each outcome is the outcome of the same name further down.
  cases he with
  | skipComment hp hn =>
    exact (Effect.skipComment (phase_move hp) hn).eq_step.trans (by rw [advance_move]; rfl)
  | endComment hp hn =>
    exact (Effect.endComment (phase_move hp) hn).eq_step.trans (by rw [advance_move]; rfl)
  | startComment hp hc =>
    exact (Effect.startComment (phase_move hp) hc).eq_step.trans (by rw [advance_move]; rfl)
  | skipBlank hp hc hb =>
    exact (Effect.skipBlank (phase_move hp) hc hb).eq_step.trans (by rw [advance_move]; rfl)
  | delimiter hp hc hb hd =>
    exact (Effect.delimiter (phase_move hp) hc hb hd).eq_step.trans (by
      rw [advance_move, ← emit_move]; rfl)
  | startRun hp hc hb hd =>
    exact (Effect.startRun (phase_move hp) hc hb hd).eq_step.trans (by rw [advance_move]; rfl)
  | header r hp hh =>
    exact (Effect.header (r.move o) (phase_move hp) hh).eq_step.trans (by rw [advance_move]; rfl)
  | commentAfterRun r hp hh hc =>
    exact (Effect.commentAfterRun (r.move o) (phase_move hp) hh hc).eq_step.trans (by
      rw [advance_move, Run.token_move]; rfl)
  | growRun r hp hh hc hb hd =>
    exact (Effect.growRun (r.move o) (phase_move hp) hh hc hb hd).eq_step.trans (by
      rw [advance_move]; rfl)
  | glue r hp hh hc hbd hs =>
    exact (Effect.glue (r.move o) (phase_move hp) hh hc hbd hs).eq_step.trans (by
      rw [advance_move, ← Run.move_push, Run.token_move, emit_move])
  | blankAfterRun r hp hh hc hb hs =>
    exact (Effect.blankAfterRun (r.move o) (phase_move hp) hh hc hb hs).eq_step.trans (by
      rw [advance_move, Run.token_move, emit_move])
  | delimiterAfterRun r hp hh hc hb hd hs =>
    exact (Effect.delimiterAfterRun (r.move o) (phase_move hp) hh hc hb hd hs).eq_step.trans (by
      rw [advance_move, Run.token_move, emit_move, ← emit_move]; rfl)

/-- A whole text makes no difference either. -/
theorem feed_move (us : List Text) : (s.move o ts).feed d us = (s.feed d us).move o ts := by
  induction us generalizing s with
  | nil => rfl
  | cons u us ih => rw [feed_cons, feed_cons, step_move, ih]

theorem finish_move : (s.move o ts).finish d = (s.finish d).move o ts := by
  unfold finish
  cases hp : s.phase with
  | between | comment => rw [phase_move hp]; rfl
  | run r =>
    rw [phase_move hp]
    exact (congrArg _ (Run.token_move o r)).trans (emit_move _)

end Scanner

/-! ## 2. The line in a text -/

/-- How many line ends a text has. -/
def Dialect.newlines (d : Dialect) (t : Text) : Nat := t.countP fun c => d.plays .newline [c]

/-- In sources that span lines it is the line feed that ends a line. -/
theorem newlines_lines (t : Text) : Table.lines.dialect.newlines t = t.count '\n' := by
  have hmark : Table.lines.dialect.mark .newline = some ['\n'] := rfl
  refine congrArg (t.countP ·) (funext fun c => Bool.eq_iff_iff.2 ?_)
  rw [Dialect.plays_iff, hmark, beq_iff_eq]
  simp only [Option.some.injEq, List.cons.injEq, and_true]
  exact eq_comm

theorem Scanner.line_feed {d : Dialect} (s : Scanner) (t : Text) :
    (s.feed d (Text.units t)).line = s.line + d.newlines t := by
  induction t generalizing s with
  | nil => rfl
  | cons c t ih =>
    have hfeed : s.feed d (Text.units (c :: t)) = (s.step d [c]).feed d (Text.units t) := rfl
    rw [hfeed, ih, (step_effect d s [c]).line_eq, line_advance, Dialect.newlines,
      Dialect.newlines, List.countP_cons]
    omega

theorem Dialect.line_scanned (d : Dialect) (t : Text) :
    (d.scanned t).line = d.newlines t + 1 := by
  rw [scanned, Scanner.line_feed, Nat.add_comm]

/-! ## 3. The next line -/

/-- What was in progress is finished, and the next line begins outside strings. -/
def Scanner.nextLine (d : Dialect) (s : Scanner) : Scanner :=
  ⟨.between, false, s.line + 1, 0, (s.finish d).found⟩

/-- **On the next line the scanner is as new, except that it counts on.** -/
theorem Dialect.nextLine_scanned (d : Dialect) (t : Text) (n : Nat) :
    (d.scanned t).nextLine d =
      ({} : Scanner).move ⟨n, d.newlines t + 1⟩ (d.tokenize (Text.units t)) := by
  rw [Scanner.nextLine, d.line_scanned, d.tokenize_eq, Scanner.tokens]
  simp [Scanner.move, Phase.move, Nat.add_comm]

/-- **The tokens of two texts**, if what stands between them ends the line of the first. -/
theorem Dialect.tokenize_nextLine (d : Dialect) {t w u : Text} {n : Nat}
    (hw : d.scanned (t ++ w) = (d.scanned t).nextLine d) :
    d.tokenize (Text.units (t ++ w ++ u)) =
      d.tokenize (Text.units t) ++
        (d.tokenize (Text.units u)).map (Token.move ⟨n, d.newlines t + 1⟩) := by
  rw [d.tokenize_eq, d.scanned_append, hw, d.nextLine_scanned t n, Scanner.feed_move,
    Scanner.finish_move, Scanner.tokens_move]
  rfl

/-! ## 4. Behind a newline -/

/-- Nothing is open that would reach over a newline: no string, and no run that takes in the blank
behind it. -/
structure Scanner.Settled (d : Dialect) (s : Scanner) : Prop where
  inString : (s.finish d).inString = false
  run : ∀ r, s.phase = .run r → d.plays .sharp r.head = false

section

variable {d : Dialect} {s : Scanner} {c : Char} {t u : Text} (h : d.Regular)
include h

/-- A newline finishes what is in progress, and the scanner is on the next line. -/
theorem Scanner.Settled.step_newline (hs : s.Settled d) (htidy : s.Tidy d)
    (hn : d.plays .newline [c] = true) (hb : d.isBlank [c] = true) :
    s.step d [c] = s.nextLine d := by
  have hadvance : s.advance d [c] = { s with line := s.line + 1, col := 0 } := by
    rw [advance, if_pos hn]
  have hc : s.opensComment d [c] = false := not_opensComment h (.inl hb)
  have hin := hs.inString
  cases hp : s.phase with
  | comment =>
    rw [(Effect.endComment hp hn).eq_step, hadvance, htidy.comment hp]
    simp [nextLine, finish, hp]
  | between =>
    rw [(Effect.skipBlank hp hc hb).eq_step, hadvance]
    simpa [nextLine, finish, hp] using hin
  | run r =>
    have hh : s.opensHeader d r [c] = false := by
      simp [opensHeader, hs.run r hp]
    rw [(Effect.blankAfterRun r hp hh hc hb (hs.run r hp)).eq_step, hadvance]
    simpa [nextLine, finish, hp, emit] using hin

/-- **The tokens of a text behind another one and a newline.** -/
theorem Dialect.tokenize_append_newline (hs : (d.scanned t).Settled d)
    (hn : d.plays .newline [c] = true) (hb : d.isBlank [c] = true) {n : Nat} :
    d.tokenize (Text.units (t ++ c :: u)) =
      d.tokenize (Text.units t) ++
        (d.tokenize (Text.units u)).map (Token.move ⟨n, d.newlines t + 1⟩) := by
  have hsplit : t ++ c :: u = (t ++ [c]) ++ u := by simp
  rw [hsplit]
  refine d.tokenize_nextLine ?_
  rw [d.scanned_concat, hs.step_newline h (d.tidy_scanned h t) hn hb]

end

end SharpForms
