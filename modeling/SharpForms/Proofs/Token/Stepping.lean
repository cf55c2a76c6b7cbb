/-
# What one unit does to the scanner

The scanner's step is a chain of tests on the phase, the string flag and the unit.  `Effect` lists
its outcomes, each with all the tests that lead to it, and `step_effect` says that there are no
others; so whatever every unit preserves is a case distinction over these, and nothing else has to
look into the step.
-/
import SharpForms.Token.Scanner

namespace SharpForms
namespace Scanner

variable {d : Dialect} {s : Scanner} {u : Text} {r : Run}

/-! ## 1. The outcomes -/

/-- What a unit can do to the scanner, by what it meets. -/
inductive Effect (d : Dialect) (s : Scanner) (u : Text) : Scanner → Prop
  | skipComment : s.phase = .comment → d.plays .newline u = false →
      Effect d s u { s.advance d u with phase := .comment }
  | endComment : s.phase = .comment → d.plays .newline u = true →
      Effect d s u { s.advance d u with phase := .between }
  | startComment : s.phase = .between → s.opensComment d u = true →
      Effect d s u { s.advance d u with phase := .comment }
  | skipBlank : s.phase = .between → s.opensComment d u = false → d.isBlank u = true →
      Effect d s u { s.advance d u with phase := .between }
  | delimiter : s.phase = .between → s.opensComment d u = false → d.isBlank u = false →
      d.isDelimiter u = true →
      Effect d s u ((s.advance d u).emit d ⟨u, some s.line, some (s.col + 1 : Nat)⟩)
  | startRun : s.phase = .between → s.opensComment d u = false → d.isBlank u = false →
      d.isDelimiter u = false →
      Effect d s u { s.advance d u with phase := .run ⟨u, [], s.line, s.col + 1⟩ }
  | header (r : Run) : s.phase = .run r → s.opensHeader d r u = true →
      Effect d s u { s.advance d u with phase := .comment }
  | commentAfterRun (r : Run) : s.phase = .run r → s.opensHeader d r u = false →
      s.opensComment d u = true →
      Effect d s u { (s.advance d u).emit d r.token with phase := .comment }
  | growRun (r : Run) : s.phase = .run r → s.opensHeader d r u = false →
      s.opensComment d u = false → d.isBlank u = false → d.isDelimiter u = false →
      Effect d s u { s.advance d u with phase := .run (r.push u) }
  | glue (r : Run) : s.phase = .run r → s.opensHeader d r u = false →
      s.opensComment d u = false → (d.isBlank u = true ∨ d.isDelimiter u = true) →
      d.plays .sharp r.head = true →
      Effect d s u ((s.advance d u).emit d (r.push u).token)
  | blankAfterRun (r : Run) : s.phase = .run r → s.opensHeader d r u = false →
      s.opensComment d u = false → d.isBlank u = true → d.plays .sharp r.head = false →
      Effect d s u ((s.advance d u).emit d r.token)
  | delimiterAfterRun (r : Run) : s.phase = .run r → s.opensHeader d r u = false →
      s.opensComment d u = false → d.isBlank u = false → d.isDelimiter u = true →
      d.plays .sharp r.head = false →
      Effect d s u (((s.advance d u).emit d r.token).emit d
        ⟨u, some s.line, some (s.col + 1 : Nat)⟩)

@[simp] theorem opensComment_advance : (s.advance d u).opensComment d u = s.opensComment d u := by
  simp [opensComment]

@[simp] theorem opensHeader_advance :
    (s.advance d u).opensHeader d r u = s.opensHeader d r u := by
  simp [opensHeader]

/-- **One unit has one of the outcomes.** -/
theorem step_effect (d : Dialect) (s : Scanner) (u : Text) : Effect d s u (s.step d u) := by
  unfold step
  simp only [phase_advance]
  cases hp : s.phase with
  | comment =>
    cases hn : d.plays .newline u with
    | true => exact .endComment hp hn
    | false => exact .skipComment hp hn
  | between =>
    simp only [opensComment_advance, start]
    cases hc : s.opensComment d u with
    | true => exact .startComment hp hc
    | false =>
      cases hb : d.isBlank u with
      | true => exact .skipBlank hp hc hb
      | false =>
        cases hd : d.isDelimiter u with
        | true => exact .delimiter hp hc hb hd
        | false => exact .startRun hp hc hb hd
  | run r =>
    simp only [extend, opensHeader_advance, opensComment_advance, start]
    cases hh : s.opensHeader d r u with
    | true => exact .header r hp hh
    | false =>
      cases hc : s.opensComment d u with
      | true => exact .commentAfterRun r hp hh hc
      | false =>
        cases hs : d.plays .sharp r.head with
        | true =>
          cases hb : d.isBlank u with
          | true => exact .glue r hp hh hc (.inl hb) hs
          | false =>
            cases hd : d.isDelimiter u with
            | true => exact .glue r hp hh hc (.inr hd) hs
            | false => exact .growRun r hp hh hc hb hd
        | false =>
          cases hb : d.isBlank u with
          | true => exact .blankAfterRun r hp hh hc hb hs
          | false =>
            cases hd : d.isDelimiter u with
            | true => exact .delimiterAfterRun r hp hh hc hb hd hs
            | false => exact .growRun r hp hh hc hb hd

/-- No two outcomes share their tests: an outcome whose tests hold is the one. -/
theorem Effect.eq_step {s' : Scanner} (he : Effect d s u s') : s.step d u = s' := by
  cases he with
  | skipComment hp hn | endComment hp hn => simp [step, hp, hn]
  | startComment hp hc => simp [step, hp, hc]
  | skipBlank hp hc hb => simp [step, hp, hc, start, hb]
  | delimiter hp hc hb hd | startRun hp hc hb hd => simp [step, hp, hc, start, hb, hd]
  | header r hp hh => simp [step, hp, extend, hh]
  | commentAfterRun r hp hh hc => simp [step, hp, extend, hh, hc]
  | growRun r hp hh hc hb hd => simp [step, hp, extend, hh, hc, hb, hd]
  | glue r hp hh hc hbd hs =>
    rcases hbd with hb | hd
    · simp [step, hp, extend, hh, hc, hb, hs]
    · simp [step, hp, extend, hh, hc, hd, hs]
  | blankAfterRun r hp hh hc hb hs => simp [step, hp, extend, hh, hc, start, hb, hs, emit]
  | delimiterAfterRun r hp hh hc hb hd hs =>
    simp [step, hp, extend, hh, hc, start, hb, hd, hs]

/-! ## 2. The position -/

theorem line_advance :
    (s.advance d u).line = s.line + if d.plays .newline u then 1 else 0 := by
  unfold advance
  split <;> rfl

theorem col_advance :
    (s.advance d u).col = if d.plays .newline u then 0 else s.col + 1 := by
  unfold advance
  split <;> rfl

theorem advance_newline (hn : d.plays .newline u = true) :
    s.advance d u = { s with line := s.line + 1, col := 0 } := by
  rw [advance, if_pos hn]

theorem advance_inline (hn : d.plays .newline u = false) :
    s.advance d u = { s with col := s.col + 1 } := by
  rw [advance, if_neg (by simp [hn])]

/-- Only the unit itself moves the line. -/
theorem Effect.line_eq {s' : Scanner} (he : Effect d s u s') :
    s'.line = (s.advance d u).line := by
  cases he <;> rfl

/-- Only the unit itself moves the column. -/
theorem Effect.col_eq {s' : Scanner} (he : Effect d s u s') : s'.col = (s.advance d u).col := by
  cases he <;> rfl

/-! ## 3. A run that a unit stops -/

@[simp] theorem advance_emit (t : Token) :
    (s.emit d t).advance d u = (s.advance d u).emit d t := by
  unfold advance
  split <;> rfl

/-- A run that a unit stops without being glued onto it could as well have been finished before the
unit, provided that this leaves the string flag as it is. -/
theorem step_of_stops (hp : s.phase = .run r) (hh : s.opensHeader d r u = false)
    (hu : d.isBlank u = true ∨ d.isDelimiter u = true ∨ s.opensComment d u = true)
    (hs : d.plays .sharp r.head = false ∨ s.opensComment d u = true)
    (hflag : (s.emit d r.token).inString = s.inString) :
    s.step d u = (s.emit d r.token).step d u := by
  have hc' : (s.emit d r.token).opensComment d u = s.opensComment d u := by
    rw [opensComment, hflag]
    rfl
  cases hc : s.opensComment d u with
  | true =>
    rw [(Effect.commentAfterRun r hp hh hc).eq_step,
      (Effect.startComment rfl (hc'.trans hc)).eq_step, advance_emit]
  | false =>
    have hsharp : d.plays .sharp r.head = false := hs.resolve_right (by simp [hc])
    cases hb : d.isBlank u with
    | true =>
      rw [(Effect.blankAfterRun r hp hh hc hb hsharp).eq_step,
        (Effect.skipBlank rfl (hc'.trans hc) hb).eq_step, advance_emit]
      rfl
    | false =>
      have hd : d.isDelimiter u = true := by simpa [hb, hc] using hu
      rw [(Effect.delimiterAfterRun r hp hh hc hb hd hsharp).eq_step,
        (Effect.delimiter rfl (hc'.trans hc) hb hd).eq_step, advance_emit]
      rfl

end Scanner
end SharpForms
