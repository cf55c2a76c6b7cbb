/-
# Tokens are notation

The tokens of a text, written down with single spaces between them, are cut into the same tokens
again (`tokenize_spaced`), whether or not the text reads.  A space stops every run without being
taken into it, and a tag takes in the character that stopped it when it is first cut off; so the
space behind it is not taken in.  Only a bare tag would take it in, and without comments such a tag
is the last token, with no space behind it.

Without comments the newline mark moves lines and columns, but no token depends on it.  So the
dialect may be taken for one without newlines (`Dialect.unlined`), and that one is regular although
in the first the newline may be one of the brackets.
-/
import SharpForms.Proofs.Dialect.Distinct
import SharpForms.Proofs.Token.Bare

namespace SharpForms

/-! ## 1. Lexemes with spaces between them -/

namespace Dialect

variable {d : Dialect} {flag : Bool} {t rest : Text}

/-- **A lexeme that is not bare is cut off again** in front of anything that stops a run, and moves
the string flag as it did before. -/
theorem Lexeme.lex_append (h : d.Regular) (ht : d.Lexeme flag t) (hbare : ¬ d.Bare t)
    (hrest : d.Stops flag rest) :
    d.lex flag (t ++ rest) = t :: d.lex (d.inStringAfter flag t) rest := by
  by_cases hs : d.StartsSharp t
  · exact lex_append_of_tag h ht hs hbare rest
  · cases hd : d.isDelimiter t with
    | true =>
      obtain ⟨c, rfl⟩ := h.single_of_delimiter hd
      rw [List.singleton_append, lex_delimiter h hd, h.inStringAfter_of_delimiter hd]
    | false =>
      have hflag : d.inStringAfter flag t = flag := by
        cases ht with
        | delimiter hc => rw [hc] at hd; cases hd
        | glued _ _ hsharp _ => exact absurd ((d.plays_iff .sharp [_]).1 hsharp) hs
        | run hrun =>
          refine h.inStringAfter_of_not_delimiter ?_ flag
          intro x hx
          exact (Scanner.inRun_iff.1 (hrun x hx)).2.1
      rw [lex_append_of_literal h ht hd hs hrest, hflag]

/-- A lexeme alone is one token. -/
theorem Lexeme.lex_eq (h : d.Regular) (ht : d.Lexeme flag t) : d.lex flag t = [t] := by
  by_cases hbare : d.Bare t
  · exact lex_of_bare ht hbare
  · have hlex := ht.lex_append h hbare stops_nil
    rwa [List.append_nil, lex_nil] at hlex

/-- **Lexemes with spaces between them are cut apart again** if only the last one is bare. -/
theorem Lexed.lex_intercalate (h : d.Regular) (hspace : d.isBlank [' '] = true) {ts : List Text}
    (hts : d.Lexed flag ts) (hbare : ts.Pairwise fun t _ => ¬ d.Bare t) :
    d.lex flag (List.intercalate [' '] ts) = ts := by
  induction hts with
  | nil => exact lex_nil
  | @cons flag t ts ht hts ih =>
    cases ts with
    | nil =>
      rw [List.intercalate_singleton]
      exact ht.lex_eq h
    | cons t' ts =>
      have hstop : d.Stops flag (' ' :: List.intercalate [' '] (t' :: ts)) :=
        stops_cons.2 (not_inRun (.inl hspace))
      rw [List.pairwise_cons] at hbare
      rw [List.intercalate_cons_cons, List.append_assoc, List.singleton_append,
        ht.lex_append h (hbare.1 t' List.mem_cons_self) hstop, lex_blank hspace, ih hbare.2]

/-! ## 2. The dialect without lines -/

/-- The dialect in which lines do not matter: with no newline, and so with no comments and header
lines. -/
def unlined (d : Dialect) : Dialect where
  mark
    | .newline | .comment | .header => none
    | r => d.mark r
  extraSpace := d.extraSpace

/-- The brackets, the quote and the sharp are pairwise distinct single characters and not blank, the
space is blank, and there are neither comments nor header lines. -/
structure Uncommented (d : Dialect) : Prop extends d.Distinct where
  comment : d.mark .comment = none
  header : d.mark .header = none
  not_blank : ∀ r t, r.isRead = true → d.mark r = some t → d.isBlank t = false
  space : d.isBlank [' '] = true

/-- Of the notation only the roles that the reader asks for are left. -/
theorem mark_of_mark_unlined {r : Role} (hr : r.isNotation = true)
    (ht : d.unlined.mark r = some t) : r.isRead = true ∧ d.mark r = some t := by
  cases r with
  | opener | closer | quote | sharp => exact ⟨rfl, ht⟩
  | space | newline => cases hr
  | comment | header => cases ht

/-- Without lines the dialect is regular. -/
theorem Uncommented.regular_unlined (h : d.Uncommented) : d.unlined.Regular where
  set r hr ho := by
    cases r with
    | opener b => exact (h.single (.opener b) rfl).imp' _ fun _ hc => hc
    | closer b => exact (h.single (.closer b) rfl).imp' _ fun _ hc => hc
    | quote => exact (h.single .quote rfl).imp' _ fun _ hc => hc
    | sharp => exact (h.single .sharp rfl).imp' _ fun _ hc => hc
    | space | newline => cases hr
    | comment | header => cases ho
  single r t hr ht := by
    obtain ⟨hread, ht⟩ := mark_of_mark_unlined hr ht
    obtain ⟨c, hc⟩ := h.single r hread
    exact ⟨c, Option.some.inj (ht.symm.trans hc)⟩
  distinct r r' t hr hr' ht ht' := by
    obtain ⟨hread, ht⟩ := mark_of_mark_unlined hr ht
    obtain ⟨hread', ht'⟩ := mark_of_mark_unlined hr' ht'
    exact h.distinct r r' t hread hread' ht ht'
  not_blank r t hr ht := by
    obtain ⟨hread, ht⟩ := mark_of_mark_unlined hr ht
    exact h.not_blank r t hread ht
  not_newline _ _ _ _ := nofun

/-- A regular dialect with a blank space is such a dialect if it has neither comments nor header
lines. -/
theorem Regular.uncommented (h : d.Regular) (hspace : d.isBlank [' '] = true)
    (hcomment : d.mark .comment = none) (hheader : d.mark .header = none) : d.Uncommented where
  toDistinct := h.distinct_roles
  comment := hcomment
  header := hheader
  not_blank r t hr ht := by
    refine h.not_blank r t ?_ ht
    cases r with
    | opener | closer | quote | sharp => rfl
    | space | newline | comment | header => cases hr
  space := hspace

end Dialect

/-! ## 3. Scanning without lines -/

/-- A run without its place. -/
def Run.unplaced (r : Run) : Run := { r with line := 0, char := 0 }

/-- What the scanner is in the middle of, without its place. -/
def Phase.unplaced : Phase → Phase
  | .between => .between
  | .run r => .run r.unplaced
  | .comment => .comment

namespace Scanner

variable {d : Dialect} {s s' : Scanner} {u : Text}

/-- The scanners differ in places only, and neither is in the middle of a comment. -/
structure SameTexts (s s' : Scanner) : Prop where
  not_comment : s.phase ≠ .comment
  phase : s'.phase.unplaced = s.phase.unplaced
  inString : s'.inString = s.inString
  found : s'.found.map Token.text = s.found.map Token.text

theorem opensComment_eq_false (hcomment : d.mark .comment = none) :
    s.opensComment d u = false := by
  simp [opensComment, Dialect.plays, hcomment]

theorem opensHeader_eq_false (hheader : d.mark .header = none) (r : Run) :
    s.opensHeader d r u = false := by
  simp [opensHeader, Dialect.plays, hheader]

namespace SameTexts

variable (h : s.SameTexts s')
include h

theorem of_between (hp : s.phase = .between) : s'.phase = .between := by
  have hphase := h.phase
  rw [hp] at hphase
  cases hp' : s'.phase with
  | between => rfl
  | run | comment => rw [hp'] at hphase; cases hphase

theorem of_run {r : Run} (hp : s.phase = .run r) :
    ∃ line char, s'.phase = .run { r with line := line, char := char } := by
  have hphase := h.phase
  rw [hp] at hphase
  cases hp' : s'.phase with
  | between | comment => rw [hp'] at hphase; cases hphase
  | run r' =>
    rw [hp'] at hphase
    injection hphase with hr
    injection hr with hhead htail
    exact ⟨r'.line, r'.char, by rw [← hhead, ← htail]⟩

theorem advance : (s.advance d u).SameTexts (s'.advance d.unlined u) := by
  constructor
  · rw [phase_advance]
    exact h.not_comment
  · rw [phase_advance, phase_advance]
    exact h.phase
  · rw [inString_advance, inString_advance]
    exact h.inString
  · rw [found_advance, found_advance]
    exact h.found

theorem with_phase {p p' : Phase} (hp : p ≠ .comment) (hpp : p'.unplaced = p.unplaced) :
    ({ s with phase := p } : Scanner).SameTexts { s' with phase := p' } :=
  ⟨hp, hpp, h.inString, h.found⟩

/-- A finished token moves the string flag in both. -/
theorem emit {t t' : Token} (ht : t'.text = t.text) :
    (s.emit d t).SameTexts (s'.emit d.unlined t') := by
  refine ⟨nofun, rfl, ?_, ?_⟩
  · rw [inString_emit, inString_emit, h.inString, ht]
    rfl
  · rw [found_emit, found_emit, List.map_cons, List.map_cons, h.found, ht]

/-- Where there are no comments and header lines, a unit does the same whether or not it ends a
line. -/
theorem step (hcomment : d.mark .comment = none) (hheader : d.mark .header = none) :
    (s.step d u).SameTexts (s'.step d.unlined u) := by
  have hc' : s'.opensComment d.unlined u = false := opensComment_eq_false rfl
  have hh' : ∀ r, s'.opensHeader d.unlined r u = false := opensHeader_eq_false rfl
  have he := step_effect d s u
  generalize s.step d u = z at he ⊢
  cases he with
  | skipComment hp | endComment hp => exact absurd hp h.not_comment
  | startComment _ hc | commentAfterRun _ _ _ hc =>
    rw [opensComment_eq_false hcomment] at hc
    cases hc
  | header r _ hh =>
    rw [opensHeader_eq_false hheader] at hh
    cases hh
  | skipBlank hp _ hb =>
    rw [(Effect.skipBlank (h.of_between hp) hc' hb).eq_step]
    exact h.advance.with_phase nofun rfl
  | delimiter hp _ hb hd =>
    rw [(Effect.delimiter (h.of_between hp) hc' hb hd).eq_step]
    exact h.advance.emit rfl
  | startRun hp _ hb hd =>
    rw [(Effect.startRun (h.of_between hp) hc' hb hd).eq_step]
    exact h.advance.with_phase nofun rfl
  | growRun r hp _ _ hb hd =>
    obtain ⟨line, char, hp'⟩ := h.of_run hp
    rw [(Effect.growRun _ hp' (hh' _) hc' hb hd).eq_step]
    exact h.advance.with_phase nofun rfl
  | glue r hp _ _ hbd hs =>
    obtain ⟨line, char, hp'⟩ := h.of_run hp
    rw [(Effect.glue _ hp' (hh' _) hc' hbd hs).eq_step]
    exact h.advance.emit rfl
  | blankAfterRun r hp _ _ hb hs =>
    obtain ⟨line, char, hp'⟩ := h.of_run hp
    rw [(Effect.blankAfterRun _ hp' (hh' _) hc' hb hs).eq_step]
    exact h.advance.emit rfl
  | delimiterAfterRun r hp _ _ hb hd hs =>
    obtain ⟨line, char, hp'⟩ := h.of_run hp
    rw [(Effect.delimiterAfterRun _ hp' (hh' _) hc' hb hd hs).eq_step]
    refine emit (d := d) ?_ rfl
    exact h.advance.emit rfl

theorem feed (hcomment : d.mark .comment = none) (hheader : d.mark .header = none)
    (us : List Text) : (s.feed d us).SameTexts (s'.feed d.unlined us) := by
  induction us generalizing s s' with
  | nil => exact h
  | cons u us ih => exact ih (h.step hcomment hheader)

theorem finish : (s.finish d).SameTexts (s'.finish d.unlined) := by
  cases hp : s.phase with
  | comment => exact absurd hp h.not_comment
  | between =>
    rw [Scanner.finish, Scanner.finish, hp, h.of_between hp]
    exact h
  | run r =>
    obtain ⟨line, char, hp'⟩ := h.of_run hp
    rw [Scanner.finish, Scanner.finish, hp, hp']
    exact h.emit rfl

end SameTexts

end Scanner

/-! ## 4. Whole texts -/

namespace Dialect

variable {d : Dialect}

/-- Where there are no comments and header lines, no token depends on where lines end. -/
theorem map_text_tokenize_unlined (hcomment : d.mark .comment = none)
    (hheader : d.mark .header = none) (us : List Text) :
    (d.unlined.tokenize us).map Token.text = (d.tokenize us).map Token.text := by
  have hinit : ({} : Scanner).SameTexts {} := ⟨nofun, rfl, rfl, rfl⟩
  have hfound := (hinit.feed hcomment hheader us).finish (d := d) |>.found
  unfold tokenize Scanner.tokens
  rw [List.map_reverse, List.map_reverse, hfound]

/-- The tokens of the text, with a space between each two of them. -/
def spaced (d : Dialect) (t : Text) : Text :=
  List.intercalate [' '] ((d.tokenize (Text.units t)).map Token.text)

/-- **The tokens of a text, written down with spaces between them, are its tokens again**, also
where the text does not read. -/
theorem tokenize_spaced (h : d.Uncommented) (t : Text) :
    (d.tokenize (Text.units (d.spaced t))).map Token.text =
      (d.tokenize (Text.units t)).map Token.text := by
  have hr := h.regular_unlined
  have hlex : ∀ t : Text, (d.tokenize (Text.units t)).map Token.text = d.unlined.lex false t := by
    intro t
    rw [← map_text_tokenize_unlined h.comment h.header, texts_tokenize_eq_lex hr]
  have hbare : (d.unlined.lex false t).Pairwise fun t _ => ¬ d.unlined.Bare t := by
    rw [← texts_tokenize_eq_lex hr]
    exact bare_last_tokenize fun t₁ c _ _ => not_stopsTag_of_mark rfl t₁ c
  rw [hlex, spaced, hlex, (lexed_lex hr false t).lex_intercalate hr h.space hbare]

/-- A text that does not read: a tag that has taken in a blank, one that has taken in a closer, and
one at the end. -/
theorem tokenize_spaced_unread :
    Table.plain.dialect.Uncommented ∧
      Table.plain.dialect.spaced "(#x  #y)a\"#".toList = "( #x  #y) a \" #".toList ∧
      (Table.plain.dialect.tokenize (Text.units "( #x  #y) a \" #".toList)).map Token.text =
        (Table.plain.dialect.tokenize (Text.units "(#x  #y)a\"#".toList)).map Token.text := by
  have h : Table.plain.dialect.Uncommented := plain_regular.uncommented rfl rfl rfl
  have hspaced : Table.plain.dialect.spaced "(#x  #y)a\"#".toList = "( #x  #y) a \" #".toList := by
    decide
  refine ⟨h, hspaced, ?_⟩
  rw [← hspaced]
  exact tokenize_spaced h _

end Dialect

end SharpForms
