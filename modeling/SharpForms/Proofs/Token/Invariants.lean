/-
# What every scan preserves

Three facts about the scanner between two units, each shown for one unit by the outcomes of
`Proofs/Token/Stepping.lean` and then for a whole text.

* Tokens are only added behind those found before (`tokens_prefix_feed`).
* The string flag is what the tokens found so far make of it (`FlagFits`).
* In a regular dialect, between two characters, a run holds neither blanks nor delimiters, and a
  comment stands outside strings (`Tidy`).

A run that stands inside a string cannot get lost: `exists_token_of_run`.
-/
import SharpForms.Proofs.Dialect.Regular
import SharpForms.Proofs.Token.Stepping

namespace SharpForms

/-! ## 1. The flag along a token list -/

namespace Dialect

variable (d : Dialect)

/-- The string flag behind some tokens, given by their texts, from the flag in front of them. -/
def inStringAfterAll (flag : Bool) (ts : List Text) : Bool := ts.foldl d.inStringAfter flag

@[simp] theorem inStringAfterAll_nil (flag : Bool) : d.inStringAfterAll flag [] = flag := rfl

@[simp] theorem inStringAfterAll_cons (flag : Bool) (t : Text) (ts : List Text) :
    d.inStringAfterAll flag (t :: ts) = d.inStringAfterAll (d.inStringAfter flag t) ts := rfl

@[simp] theorem inStringAfterAll_append (flag : Bool) (ts us : List Text) :
    d.inStringAfterAll flag (ts ++ us) = d.inStringAfterAll (d.inStringAfterAll flag ts) us := by
  simp [inStringAfterAll]

/-- The string flag in front of a token, once the tokens before it have been found. -/
def flagBefore (ts : List Token) (i : Nat) : Bool :=
  d.inStringAfterAll false ((ts.take i).map Token.text)

end Dialect

namespace Scanner

variable {d : Dialect} {s s' : Scanner} {u : Text}

/-- What one unit preserves, a stretch of units preserves. -/
theorem feed_invariant {P : Scanner → Prop} {us : List Text}
    (hstep : ∀ s, ∀ u ∈ us, P s → P (s.step d u)) (hs : P s) : P (s.feed d us) := by
  induction us generalizing s with
  | nil => exact hs
  | cons u us ih =>
    rw [feed_cons]
    refine ih ?_ (hstep s u List.mem_cons_self hs)
    intro s v hv
    exact hstep s v (List.mem_cons_of_mem u hv)

/-! ## 2. Tokens are only added -/

@[simp] theorem tokens_advance : (s.advance d u).tokens = s.tokens := by
  simp [tokens]

theorem tokens_advance_phase (ph : Phase) :
    ({ s.advance d u with phase := ph } : Scanner).tokens = s.tokens := by
  simp [tokens]

theorem Effect.prefix_tokens (he : Effect d s u s') : s.tokens <+: s'.tokens := by
  cases he <;> simp [tokens]

theorem tokens_prefix_feed (s : Scanner) (us : List Text) :
    s.tokens <+: (s.feed d us).tokens :=
  feed_invariant (P := fun s' => s.tokens <+: s'.tokens)
    (fun _ u _ h => h.trans (step_effect d _ u).prefix_tokens) (List.prefix_refl _)

theorem tokens_prefix_finish (s : Scanner) : s.tokens <+: (s.finish d).tokens := by
  unfold finish
  split <;> simp

/-! ## 3. The string flag is that of the tokens -/

/-- The flag is what the tokens found so far make of it. -/
def FlagFits (d : Dialect) (s : Scanner) : Prop :=
  s.inString = d.inStringAfterAll false (s.tokens.map Token.text)

/-- A finished token moves the flag as it should. -/
theorem FlagFits.emit (h : FlagFits d s) (t : Token) : FlagFits d (s.emit d t) := by
  simp only [FlagFits, inString_emit, tokens_emit, List.map_append, List.map_cons, List.map_nil,
    Dialect.inStringAfterAll_append, Dialect.inStringAfterAll_cons, Dialect.inStringAfterAll_nil]
  rw [← h]

theorem FlagFits.advance (h : FlagFits d s) : FlagFits d (s.advance d u) := by
  simpa [FlagFits] using h

theorem Effect.flagFits (he : Effect d s u s') (h : FlagFits d s) : FlagFits d s' := by
  cases he with
  | skipComment | endComment | startComment | skipBlank | startRun | header | growRun =>
    exact h.advance
  | delimiter | commentAfterRun | glue | blankAfterRun => exact h.advance.emit _
  | delimiterAfterRun => exact (h.advance.emit _).emit _

theorem flagFits_feed (us : List Text) : FlagFits d (({} : Scanner).feed d us) :=
  feed_invariant (fun _ u _ h => (step_effect d _ u).flagFits h) rfl

theorem FlagFits.finish (h : FlagFits d s) : FlagFits d (s.finish d) := by
  unfold Scanner.finish
  split
  · exact h.emit _
  · exact h

/-- The flag of a scanner whose tokens begin a list is the one in front of the list's next
token. -/
theorem FlagFits.eq_flagBefore (h : FlagFits d s) {ts : List Token} (hts : s.tokens <+: ts) :
    s.inString = d.flagBefore ts s.tokens.length := by
  obtain ⟨rest, rfl⟩ := hts
  rw [Dialect.flagBefore, List.take_left]
  exact h

/-! ## 4. Runs and comments between two characters -/

/-- A run in progress holds neither blanks nor delimiters, and a comment stands outside strings. -/
structure Tidy (d : Dialect) (s : Scanner) : Prop where
  run : ∀ r, s.phase = .run r →
    r.text ≠ [] ∧ ∀ c ∈ r.text, d.isBlank [c] = false ∧ d.isDelimiter [c] = false
  comment : s.phase = .comment → s.inString = false

section

variable (h : d.Regular) {c : Char}
include h

/-- The comment mark is neither blank nor a delimiter. -/
theorem not_opensComment (hc : d.isBlank [c] = true ∨ d.isDelimiter [c] = true) :
    s.opensComment d [c] = false := by
  rw [opensComment, Bool.and_eq_false_iff, Bool.eq_false_iff (b := d.plays .comment [c]), Ne,
    Dialect.plays_iff]
  right
  intro hm
  rcases hc with hc | hc
  · rw [h.not_blank _ _ rfl hm] at hc
    cases hc
  · rw [h.isDelimiter_eq_false rfl (by simp) (by simp) (by simp) hm] at hc
    cases hc

/-- One character keeps the scanner tidy. -/
theorem Effect.tidy (he : Effect d s [c] s') (hs : Tidy d s) : Tidy d s' := by
  cases he with
  | skipComment hp =>
    refine ⟨by simp, ?_⟩
    intro _
    simpa using hs.comment hp
  | endComment | skipBlank | delimiter | glue | blankAfterRun | delimiterAfterRun =>
    exact ⟨by simp, by simp⟩
  | startComment hp hc =>
    simp only [opensComment, Bool.and_eq_true, Bool.not_eq_true'] at hc
    refine ⟨by simp, ?_⟩
    intro _
    simpa using hc.1
  | startRun hp hc hb hd =>
    refine ⟨?_, by simp⟩
    intro r hr
    obtain rfl := Phase.run.inj hr
    simpa [Run.text, Run.units] using ⟨hb, hd⟩
  | header r hp hh =>
    simp only [opensHeader, Bool.and_eq_true, Bool.not_eq_true'] at hh
    refine ⟨by simp, ?_⟩
    intro _
    simpa using hh.1.1.1
  | commentAfterRun r hp hh hc =>
    simp only [opensComment, Bool.and_eq_true, Bool.not_eq_true'] at hc
    have hr : ∀ e ∈ r.text, d.isDelimiter [e] = false := by
      intro e he
      exact ((hs.run r hp).2 e he).2
    refine ⟨by simp, ?_⟩
    intro _
    simpa [hc.1] using h.inStringAfter_of_not_delimiter hr false
  | growRun r hp hh hc hb hd =>
    refine ⟨?_, by simp⟩
    intro r' hr
    obtain rfl := Phase.run.inj hr
    obtain ⟨h1, h2⟩ := hs.run r hp
    rw [Run.text_push]
    refine ⟨by simp, ?_⟩
    intro e he
    rcases List.mem_append.1 he with he | he
    · exact h2 e he
    · obtain rfl := List.mem_singleton.1 he
      exact ⟨hb, hd⟩

/-- After any text a scanner that was tidy is tidy. -/
theorem Tidy.feed (hs : Tidy d s) (t : Text) : Tidy d (s.feed d (Text.units t)) := by
  refine feed_invariant ?_ hs
  intro s u hu hs
  obtain ⟨c, -, rfl⟩ := List.mem_map.1 hu
  exact (step_effect d s [c]).tidy h hs

end

theorem tidy_init : Tidy d {} := ⟨by simp, by simp⟩

/-- A run that begins with the sharp does so as a text. -/
theorem startsSharp_of_run (h : d.Regular) {r : Run} (hs : d.plays .sharp r.head = true) :
    d.StartsSharp r.text := by
  have hm := (d.plays_iff _ _).1 hs
  obtain ⟨c, hc⟩ := h.single .sharp _ rfl hm
  rw [hc] at hm
  simpa [Dialect.StartsSharp, Run.text, Run.units, hc] using hm

/-! ## 5. Runs inside strings -/

/-- Inside a string a unit that stops no run goes into one, whatever else it may be elsewhere. -/
theorem exists_run_of_inString (hs : s.inString = true) (hp : s.phase ≠ .comment)
    (hb : d.isBlank u = false) (hd : d.isDelimiter u = false) :
    ∃ r, (s.step d u).phase = .run r ∧ r.units.getLast? = some u ∧
      (s.step d u).inString = true ∧ (s.step d u).tokens = s.tokens := by
  have he := step_effect d s u
  generalize s.step d u = s' at he ⊢
  cases he with
  | startRun => exact ⟨_, rfl, rfl, by simpa using hs, by simp [tokens]⟩
  | growRun r =>
    refine ⟨_, rfl, ?_, by simpa using hs, by simp [tokens]⟩
    rw [Run.units_push]
    exact List.getLast?_concat
  | skipComment hp' | endComment hp' => exact absurd hp' hp
  | startComment _ hc | commentAfterRun _ _ _ hc => simp [opensComment, hs] at hc
  | header _ _ hh => simp [opensHeader, hs] at hh
  | skipBlank _ _ hb' | blankAfterRun _ _ _ _ hb' => rw [hb] at hb'; cases hb'
  | delimiter _ _ _ hd' | delimiterAfterRun _ _ _ _ _ hd' => rw [hd] at hd'; cases hd'
  | glue _ _ _ _ hbd => simp [hb, hd] at hbd

/-- A token that has just been found keeps its place, whatever follows. -/
theorem getElem?_of_emit_prefix {t : Token} (us : List Text)
    (ht : (s.emit d t).tokens <+: s'.tokens) :
    ((s'.feed d us).finish d).tokens[s.tokens.length]? = some t := by
  obtain ⟨rest, hrest⟩ := ht.trans ((tokens_prefix_feed s' us).trans (tokens_prefix_finish _))
  rw [← hrest]
  simp

/-- **A run inside a string becomes a token.**  Whatever follows, the next token found starts with
the run. -/
theorem exists_token_of_run {r : Run} (hp : s.phase = .run r) (hs : s.inString = true)
    (us : List Text) :
    ∃ t, ((s.feed d us).finish d).tokens[s.tokens.length]? = some t ∧ r.text <+: t.text := by
  induction us generalizing s r with
  | nil => exact ⟨r.token, by simp [finish, hp], List.prefix_refl _⟩
  | cons u us ih =>
    rw [feed_cons]
    have he := step_effect d s u
    generalize s.step d u = s' at he ⊢
    cases he with
    | growRun r' hp' =>
      obtain rfl : r = r' := by simpa [hp] using hp'
      obtain ⟨t, ht, hr⟩ := ih (r := r.push u)
        (s := { s.advance d u with phase := .run (r.push u) }) rfl (by simpa using hs)
      refine ⟨t, by simpa [tokens] using ht, List.IsPrefix.trans ?_ hr⟩
      simp
    | glue r' hp' =>
      obtain rfl : r = r' := by simpa [hp] using hp'
      exact ⟨(r.push u).token, getElem?_of_emit_prefix us (by simp), by simp [Run.token]⟩
    | blankAfterRun r' hp' | delimiterAfterRun r' hp' =>
      obtain rfl : r = r' := by simpa [hp] using hp'
      exact ⟨r.token, getElem?_of_emit_prefix us (by simp), List.prefix_refl _⟩
    | header r' _ hh => simp [opensHeader, hs] at hh
    | commentAfterRun r' _ _ hc => simp [opensComment, hs] at hc
    | skipComment hp' | endComment hp' | startComment hp' | skipBlank hp' | delimiter hp'
    | startRun hp' => simp [hp] at hp'

end Scanner

end SharpForms
