/-
# Texts that differ in their blanks

One blank is as good as another one: a text with some blanks put in place of others is cut into
tokens at the same places, as long as none of the blanks ends a line (`tokenize_reblanked`).  A
blank drops out, and the one kind of token that keeps it, a tag that it has stopped, keeps it as its
last character; so the tokens are the same but for that character (`Dialect.TokenReblanked`).

Between two units the two scans are in the same state, the tokens found so far apart.
-/
import SharpForms.Proofs.Alike
import SharpForms.Proofs.Token.Joined

namespace SharpForms

/-! ## 1. Other blanks -/

namespace Dialect

variable (d : Dialect)

/-- The text with some of its blanks put in place of others. -/
def Reblanked (t u : Text) : Prop :=
  List.Forall₂ (fun c e => c = e ∨ (d.isBlank [c] = true ∧ d.isBlank [e] = true)) t u

instance (t u : Text) : Decidable (d.Reblanked t u) :=
  inferInstanceAs (Decidable (List.Forall₂ _ t u))

/-- The token text, or, if it is a tag that a blank has stopped, the tag with another blank. -/
inductive TokenReblanked : Text → Text → Prop
  | same (t : Text) : TokenReblanked t t
  | glued {t : Text} {c e : Char} : d.StartsSharp t → d.isBlank [c] = true →
      d.isBlank [e] = true → TokenReblanked (t ++ [c]) (t ++ [e])

/-- No blank ends a line. -/
def BlanksInline : Prop := ∀ c, d.isBlank [c] = true → d.plays .newline [c] = false

variable {d} {t u : Text}

/-- With another blank a tag moves the string flag as before. -/
theorem TokenReblanked.inStringAfter_eq (hd : d.Regular) (h : d.TokenReblanked t u) (flag : Bool) :
    d.inStringAfter flag t = d.inStringAfter flag u := by
  cases h with
  | same => rfl
  | glued hs hc he =>
    rw [hd.inStringAfter_of_startsSharp (hd.startsSharp_append hs _) List.getLast?_concat,
      hd.inStringAfter_of_startsSharp (hd.startsSharp_append hs _) List.getLast?_concat,
      hd.not_plays_of_blank rfl hc, hd.not_plays_of_blank rfl he]

end Dialect

namespace Scanner

variable {d : Dialect} {s s' : Scanner} {u : Text} {c e : Char} {t t' : Text}

/-! ## 2. The tokens found so far -/

/-- A scanner that has not moved, with other tokens in front. -/
theorem move_zero (ts : List Token) :
    s.move ⟨0, 0⟩ ts = { s with found := s.found ++ ts.reverse } := by
  have hphase : s.phase.move ⟨0, 0⟩ = s.phase := by cases s.phase <;> rfl
  rw [move, hphase, map_move_tokens, Nat.add_zero]

/-- What a unit does does not depend on the tokens found before. -/
theorem step_found (ts : List Token) :
    ({ s with found := ts } : Scanner).step d u =
      { ({ s with found := [] } : Scanner).step d u with
        found := (({ s with found := [] } : Scanner).step d u).found ++ ts } := by
  have hstep := @step_move d ⟨0, 0⟩ ts.reverse { s with found := [] } u
  rw [move_zero, move_zero, List.reverse_reverse, List.nil_append] at hstep
  exact hstep

/-! ## 3. Unit by unit -/

/-- The scans of two texts that differ in their blanks: the same state, and tokens that differ only
in the blanks that tags have taken in. -/
structure Reblanked (d : Dialect) (s s' : Scanner) : Prop where
  phase : s'.phase = s.phase
  inString : s'.inString = s.inString
  line : s'.line = s.line
  col : s'.col = s.col
  found : List.Forall₂ (Token.Alike d.TokenReblanked) s.found s'.found

theorem alike_tokens_refl (ts : List Token) :
    List.Forall₂ (Token.Alike d.TokenReblanked) ts ts :=
  List.forall₂_same.2 fun _ _ => ⟨.same _, rfl, rfl⟩

namespace Reblanked

variable (h : s.Reblanked d s')
include h

/-- One unit that both texts have. -/
theorem step_same : (s.step d u).Reblanked d (s'.step d u) := by
  obtain ⟨ts, hs', hts⟩ : ∃ ts, s' = { s with found := ts } ∧
      List.Forall₂ (Token.Alike d.TokenReblanked) s.found ts :=
    ⟨s'.found, by rw [← h.phase, ← h.inString, ← h.line, ← h.col], h.found⟩
  have hs : s.step d u = _ := step_found s.found
  rw [hs', step_found ts, hs]
  exact ⟨rfl, rfl, rfl, rfl, List.rel_append (alike_tokens_refl _) hts⟩

/-- A blank moves the column, and no more than that. -/
theorem advance (hn : d.BlanksInline) (hc : d.isBlank [c] = true) (he : d.isBlank [e] = true) :
    (s.advance d [c]).Reblanked d (s'.advance d [e]) := by
  rw [advance_inline (hn c hc), advance_inline (hn e he)]
  exact ⟨h.phase, h.inString, h.line, congrArg (· + 1) h.col, h.found⟩

theorem with_phase (p : Phase) :
    ({ s with phase := p } : Scanner).Reblanked d { s' with phase := p } :=
  ⟨rfl, h.inString, h.line, h.col, h.found⟩

/-- A finished token that moves the string flag alike. -/
theorem emit {a b : Token} (hab : a.Alike d.TokenReblanked b)
    (hflag : ∀ flag, d.inStringAfter flag a.text = d.inStringAfter flag b.text) :
    (s.emit d a).Reblanked d (s'.emit d b) := by
  refine ⟨rfl, ?_, h.line, h.col, .cons hab h.found⟩
  rw [inString_emit, inString_emit, h.inString, hflag]

/-- One unit that is a blank in both texts. -/
theorem step_blank (hd : d.Regular) (hn : d.BlanksInline) (hc : d.isBlank [c] = true)
    (he : d.isBlank [e] = true) : (s.step d [c]).Reblanked d (s'.step d [e]) := by
  have hcomment : ∀ {s : Scanner} {c : Char}, d.isBlank [c] = true →
      s.opensComment d [c] = false := fun hb => not_opensComment hd (.inl hb)
  have hheader : ∀ {s : Scanner} {r : Run} {c : Char}, d.isBlank [c] = true →
      s.opensHeader d r [c] = false := by
    intro s r c hb
    have hmark : d.plays .header [c] = false := hd.not_plays_of_blank rfl hb
    simp [opensHeader, hmark]
  have hadvance := h.advance hn hc he
  cases hp : s.phase with
  | comment =>
    rw [(Effect.skipComment hp (hn c hc)).eq_step,
      (Effect.skipComment (h.phase.trans hp) (hn e he)).eq_step]
    exact hadvance.with_phase .comment
  | between =>
    rw [(Effect.skipBlank hp (hcomment hc) hc).eq_step,
      (Effect.skipBlank (h.phase.trans hp) (hcomment he) he).eq_step]
    exact hadvance.with_phase .between
  | run r =>
    cases hs : d.plays .sharp r.head with
    | true =>
      have htext : d.TokenReblanked (r.push [c]).token.text (r.push [e]).token.text := by
        rw [Run.text_token, Run.text_token, Run.text_push, Run.text_push]
        exact .glued (startsSharp_of_run hd hs) hc he
      rw [(Effect.glue r hp (hheader hc) (hcomment hc) (.inl hc) hs).eq_step,
        (Effect.glue r (h.phase.trans hp) (hheader he) (hcomment he) (.inl he) hs).eq_step]
      exact hadvance.emit ⟨htext, rfl, rfl⟩ (htext.inStringAfter_eq hd)
    | false =>
      rw [(Effect.blankAfterRun r hp (hheader hc) (hcomment hc) hc hs).eq_step,
        (Effect.blankAfterRun r (h.phase.trans hp) (hheader he) (hcomment he) he hs).eq_step]
      exact hadvance.emit ⟨.same _, rfl, rfl⟩ fun _ => rfl

/-- **Texts that differ in their blanks are scanned alike.** -/
theorem feed (hd : d.Regular) (hn : d.BlanksInline) (ht : d.Reblanked t t') :
    (s.feed d (Text.units t)).Reblanked d (s'.feed d (Text.units t')) := by
  induction ht generalizing s s' with
  | nil => exact h
  | cons hce _ ih =>
    rcases hce with rfl | ⟨hc, he⟩
    · exact ih h.step_same
    · exact ih (h.step_blank hd hn hc he)

theorem finish : (s.finish d).Reblanked d (s'.finish d) := by
  have hphase := h.phase
  cases hp : s.phase with
  | between | comment =>
    rw [hp] at hphase
    rw [Scanner.finish, Scanner.finish, hp, hphase]
    exact h
  | run r =>
    rw [hp] at hphase
    rw [Scanner.finish, Scanner.finish, hp, hphase]
    exact h.emit ⟨.same _, rfl, rfl⟩ fun _ => rfl

end Reblanked

end Scanner

/-- **The tokens of texts that differ in their blanks** are as many, in the same places, and the
same but for the blanks that tags have taken in. -/
theorem Dialect.tokenize_reblanked {d : Dialect} (hd : d.Regular) (hn : d.BlanksInline)
    {t u : Text} (h : d.Reblanked t u) :
    List.Forall₂ (Token.Alike d.TokenReblanked) (d.tokenize (Text.units t))
      (d.tokenize (Text.units u)) := by
  have hinit : ({} : Scanner).Reblanked d {} := ⟨rfl, rfl, rfl, rfl, .nil⟩
  exact List.forall₂_reverse_iff.2 ((hinit.feed hd hn h).finish).found

end SharpForms
