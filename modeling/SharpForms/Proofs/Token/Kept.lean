/-
# What a scan keeps

The scanner drops blanks, and it drops comments and header lines.  Counting the characters of a
text that are not blank tells the two apart: as long as there is no comment all of them are kept,
in tokens or in the run in progress, and a comment loses one at its start (`Effect.kept_lt`) that
never comes back (`kept_feed_le`).  So a text whose tokens hold as many such characters as the
text itself has no comment in it (`phase_ne_comment`).
-/
import SharpForms.Proofs.Token.StringFlag

namespace SharpForms

/-- How many characters of the text are not blank. -/
def Dialect.solid (d : Dialect) (t : Text) : Nat := t.countP fun c => !d.isBlank [c]

@[simp] theorem Dialect.solid_append (d : Dialect) (t u : Text) :
    d.solid (t ++ u) = d.solid t + d.solid u := List.countP_append

theorem Dialect.solid_cons (d : Dialect) (c : Char) (t : Text) :
    d.solid (c :: t) = d.solid [c] + d.solid t := d.solid_append [c] t

/-- A character that is not blank counts as one. -/
theorem Dialect.solid_single {d : Dialect} {c : Char} (h : d.isBlank [c] = false) :
    d.solid [c] = 1 := by
  simp [solid, h]

/-- Between the same texts the same is kept. -/
theorem Dialect.solid_between {d : Dialect} {t u body : Text} {ts : List Text}
    (h : d.solid body = d.solid ts.flatten) :
    d.solid (t ++ body ++ u) = d.solid (t :: ts ++ [u]).flatten := by
  have hflat : (t :: ts ++ [u]).flatten = t ++ ts.flatten ++ u := by simp
  rw [hflat]
  simp only [d.solid_append, h]

namespace Scanner

variable {d : Dialect} {s s' : Scanner} {r : Run} {c : Char} {t : Text}

/-! ## 1. One character -/

/-- The text that is in the tokens found and in the run in progress. -/
def keptText (s : Scanner) : Text :=
  (s.tokens.map Token.text).flatten ++
    match s.phase with
    | .run r => r.text
    | .between | .comment => []

/-- How many characters in it are not blank. -/
def kept (d : Dialect) (s : Scanner) : Nat := d.solid s.keptText

/-- What is kept by a scanner that has just finished a token. -/
theorem kept_emit (s : Scanner) (t : Token) :
    (s.emit d t).kept d = d.solid (s.tokens.map Token.text).flatten + d.solid t.text := by
  simp [kept, keptText]

theorem kept_run (hp : s.phase = .run r) :
    s.kept d = d.solid (s.tokens.map Token.text).flatten + d.solid r.text := by
  simp [kept, keptText, hp]

theorem kept_of_not_run (hp : s.phase = .between ∨ s.phase = .comment) :
    s.kept d = d.solid (s.tokens.map Token.text).flatten := by
  rcases hp with hp | hp <;> simp [kept, keptText, hp]

/-- A comment right behind a run keeps the run. -/
theorem kept_comment_emit (s : Scanner) (u : Text) (t : Token) :
    ({ (s.advance d u).emit d t with phase := .comment } : Scanner).kept d =
      d.solid (s.tokens.map Token.text).flatten + d.solid t.text := by
  simp [kept, keptText, tokens]

/-- **One character adds no more than itself.** -/
theorem Effect.kept_le (he : Effect d s [c] s') : s'.kept d ≤ s.kept d + d.solid [c] := by
  cases he with
  | skipComment hp _ | endComment hp _ =>
    rw [kept_of_not_run (.inr hp), kept_of_not_run (by simp), tokens_advance_phase]
    omega
  | startComment hp _ | skipBlank hp _ _ =>
    rw [kept_of_not_run (.inl hp), kept_of_not_run (by simp), tokens_advance_phase]
    omega
  | delimiter hp =>
    refine Nat.le_of_eq ?_
    rw [kept_of_not_run (.inl hp), kept_emit, tokens_advance]
  | startRun hp =>
    rw [kept_of_not_run (.inl hp), kept_run rfl, tokens_advance_phase]
    simp [Run.text, Run.units]
  | header r hp =>
    rw [kept_run hp, kept_of_not_run (.inr rfl), tokens_advance_phase]
    omega
  | commentAfterRun r hp =>
    rw [kept_run hp, kept_comment_emit, Run.text_token]
    omega
  | growRun r hp =>
    rw [kept_run hp, kept_run rfl, tokens_advance_phase, Run.text_push, d.solid_append]
    omega
  | glue r hp =>
    rw [kept_run hp, kept_emit, tokens_advance, Run.text_token, Run.text_push, d.solid_append]
    omega
  | blankAfterRun r hp =>
    rw [kept_run hp, kept_emit, tokens_advance, Run.text_token]
    omega
  | delimiterAfterRun r hp =>
    rw [kept_run hp, kept_emit, tokens_emit, tokens_advance]
    simp

/-- **The character that begins a comment is lost**, and maybe more. -/
theorem Effect.kept_lt (h : d.Regular) (he : Effect d s [c] s') (hp : s.phase ≠ .comment)
    (hp' : s'.phase = .comment) : s'.kept d < s.kept d + d.solid [c] := by
  -- Neither the comment mark nor the header mark is blank.
  have hmark : ∀ {r : Role}, r.isNotation = true → d.plays r [c] = true → d.solid [c] = 1 := by
    intro r hr hc
    exact Dialect.solid_single (h.not_blank r [c] hr ((d.plays_iff r [c]).1 hc))
  cases he with
  | skipComment hc | endComment hc => exact absurd hc hp
  | skipBlank | delimiter | startRun | growRun | glue | blankAfterRun | delimiterAfterRun =>
    simp at hp'
  | startComment hb hc =>
    rw [opensComment, Bool.and_eq_true] at hc
    rw [hmark rfl hc.2, kept_of_not_run (.inl hb), kept_of_not_run (.inr rfl), tokens_advance_phase]
    omega
  | header r hr hc =>
    simp only [opensHeader, Bool.and_eq_true] at hc
    rw [hmark rfl hc.2, kept_run hr, kept_of_not_run (.inr rfl), tokens_advance_phase]
    omega
  | commentAfterRun r hr _ hc =>
    rw [opensComment, Bool.and_eq_true] at hc
    rw [hmark rfl hc.2, kept_run hr, kept_comment_emit, Run.text_token]
    omega

/-! ## 2. Whole texts -/

theorem kept_feed_le (s : Scanner) (t : Text) :
    (s.feed d (Text.units t)).kept d ≤ s.kept d + d.solid t := by
  induction t generalizing s with
  | nil => exact Nat.le_refl _
  | cons c t ih =>
    have hstep := (step_effect d s [c]).kept_le
    have hrest : ((s.step d [c]).feed d (Text.units t)).kept d ≤ _ := ih (s.step d [c])
    rw [d.solid_cons]
    exact Nat.le_trans hrest (by omega)

/-- Once a comment has begun, something is lost. -/
theorem kept_feed_lt (h : d.Regular) (hp : s.phase ≠ .comment)
    (hp' : (s.feed d (Text.units t)).phase = .comment) :
    (s.feed d (Text.units t)).kept d < s.kept d + d.solid t := by
  induction t generalizing s with
  | nil => exact absurd hp' hp
  | cons c t ih =>
    have he := step_effect d s [c]
    rw [d.solid_cons]
    by_cases hc : (s.step d [c]).phase = .comment
    · have hstep := he.kept_lt h hp hc
      have hrest := kept_feed_le (d := d) (s.step d [c]) t
      exact Nat.lt_of_le_of_lt hrest (by omega)
    · have hstep := he.kept_le
      have hrest : ((s.step d [c]).feed d (Text.units t)).kept d < _ := ih hc hp'
      exact Nat.lt_of_lt_of_le hrest (by omega)

/-- What is kept at the end of the text is what the tokens hold. -/
theorem kept_eq_solid_finish (s : Scanner) :
    s.kept d = d.solid ((s.finish d).tokens.map Token.text).flatten := by
  unfold finish
  cases hp : s.phase with
  | between => exact kept_of_not_run (.inl hp)
  | comment => exact kept_of_not_run (.inr hp)
  | run r => simp [kept_run hp]

end Scanner

/-- **A text that loses nothing has no comments.**  If the tokens of a text hold all its characters
that are not blank, the scan is never in the middle of a comment or a header line. -/
theorem Dialect.phase_ne_comment {d : Dialect} (h : d.Regular) {t₁ t₂ : Text}
    (hkept : d.solid (t₁ ++ t₂) ≤
      d.solid ((d.tokenize (Text.units (t₁ ++ t₂))).map Token.text).flatten) :
    (d.scanned t₁).phase ≠ .comment := by
  intro hp
  have hnone : ({} : Scanner).kept d = 0 := rfl
  have hlost := Scanner.kept_feed_lt h (s := {}) (by simp) hp
  have hrest := Scanner.kept_feed_le (d := d) (d.scanned t₁) t₂
  rw [d.tokenize_eq, ← Scanner.kept_eq_solid_finish, d.scanned_append, d.solid_append] at hkept
  unfold scanned at *
  omega

end SharpForms
