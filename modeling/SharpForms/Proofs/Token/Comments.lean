/-
# What a comment is to the text around it

A comment mark finishes the run in front of it, and what stands between the mark and the end of the
line leaves no trace in the scanner, not even in the column.  So behind a comment the scanner is on
the next line, with all that was in progress finished (`scanned_comment`), as it is behind a bare
newline (`scanned_newline`) and behind a header line (`scanned_header`), and then the tokens of the
whole text are the same, wherever they stand (`tokenize_comment`).

The three part at a run in progress.  A run that begins with the sharp takes in a newline, but not
the mark of a comment; and a header line begins only where there is no run.
-/
import SharpForms.Proofs.Token.Joined

namespace SharpForms

section

variable {d : Dialect} {s : Scanner} {c e n : Char} {t u : Text}

/-! ## 1. Through the line -/

/-- The text has no line end. -/
def Dialect.OneLine (d : Dialect) (t : Text) : Prop := ∀ c ∈ t, d.plays .newline [c] = false

namespace Scanner

/-- **A comment is over behind the newline**, whatever it says. -/
theorem feed_comment (hp : s.phase = .comment) (ht : d.OneLine t)
    (hn : d.plays .newline [n] = true) :
    s.feed d (Text.units (t ++ [n])) = ⟨.between, s.inString, s.line + 1, 0, s.found⟩ := by
  induction t generalizing s with
  | nil =>
    have hfeed : s.feed d (Text.units ([] ++ [n])) = s.step d [n] := rfl
    rw [hfeed, (Effect.endComment hp hn).eq_step, advance_newline hn]
  | cons c t ih =>
    obtain ⟨hc, ht⟩ := List.forall_mem_cons.1 ht
    have hfeed : s.feed d (Text.units (c :: t ++ [n])) =
        (s.step d [c]).feed d (Text.units (t ++ [n])) := rfl
    rw [hfeed, (Effect.skipComment hp hc).eq_step, advance_inline hc, ih rfl ht]

/-! ## 2. Up to the line -/

/-- Outside strings and comments, so that a comment mark would begin a comment. -/
structure Open (s : Scanner) : Prop where
  inString : s.inString = false
  phase : s.phase ≠ .comment

section

variable (h : d.Regular)
include h

/-- What is in progress there does not enter a string when it is finished. -/
theorem Open.inString_finish (hs : s.Open) (htidy : s.Tidy d) : (s.finish d).inString = false := by
  unfold finish
  cases hp : s.phase with
  | between | comment => exact hs.inString
  | run r =>
    have hr : ∀ e ∈ r.text, d.isDelimiter [e] = false := fun e he => ((htidy.run r hp).2 e he).2
    simpa [hs.inString] using h.inStringAfter_of_not_delimiter hr false

/-- The comment mark finishes what is in progress and begins a comment. -/
theorem Open.step_mark (hs : s.Open) (htidy : s.Tidy d) (hc : d.plays .comment [c] = true) :
    s.step d [c] = ⟨.comment, false, s.line, s.col + 1, (s.finish d).found⟩ := by
  have hmark : d.mark .comment = some [c] := (d.plays_iff _ _).1 hc
  have hline : d.plays .newline [c] = false := h.not_plays_newline rfl hmark
  have hopens : s.opensComment d [c] = true := by simp [opensComment, hs.inString, hc]
  have hin := hs.inString_finish h htidy
  cases hp : s.phase with
  | comment => exact absurd hp hs.phase
  | between =>
    rw [(Effect.startComment hp hopens).eq_step, advance_inline hline, hs.inString]
    simp [finish, hp]
  | run r =>
    have hheader : d.plays .header [c] = false := h.not_plays rfl rfl (by simp) hmark
    have hh : s.opensHeader d r [c] = false := by simp [opensHeader, hheader]
    rw [(Effect.commentAfterRun r hp hh hopens).eq_step, advance_inline hline]
    simpa [finish, hp, emit] using hin

/-- Between tokens a sharp and the header mark begin a comment, too. -/
theorem Open.step_header (hs : s.Open) (hp : s.phase = .between) (hc : d.plays .sharp [c] = true)
    (he : d.plays .header [e] = true) :
    (s.step d [c]).step d [e] = ⟨.comment, false, s.line, s.col + 2, s.found⟩ := by
  have hsharp : d.mark .sharp = some [c] := (d.plays_iff _ _).1 hc
  have hheader : d.mark .header = some [e] := (d.plays_iff _ _).1 he
  have hcomment : s.opensComment d [c] = false := by
    have : d.plays .comment [c] = false := h.not_plays rfl rfl (by simp) hsharp
    simp [opensComment, this]
  have hstart := (Effect.startRun hp hcomment (h.not_blank _ _ rfl hsharp)
    (h.isDelimiter_eq_false rfl (by simp) (by simp) (by simp) hsharp)).eq_step
  rw [advance_inline (h.not_plays_newline rfl hsharp)] at hstart
  have hopens : (s.step d [c]).opensHeader d ⟨[c], [], s.line, s.col + 1⟩ [e] = true := by
    simp [hstart, opensHeader, hs.inString, hc, he]
  rw [(Effect.header _ (by rw [hstart]) hopens).eq_step,
    advance_inline (h.not_plays_newline rfl hheader), hstart, hs.inString]

end

end Scanner

/-! ## 3. On to the next line -/

section

variable (h : d.Regular) (hs : (d.scanned u).Open) (hn : d.plays .newline [n] = true)
include h hs hn

/-- **Behind a comment the scanner is on the next line.** -/
theorem Dialect.scanned_comment (hc : d.plays .comment [c] = true) (ht : d.OneLine t) :
    d.scanned (u ++ (c :: t ++ [n])) = (d.scanned u).nextLine d := by
  have hfeed : (d.scanned u).feed d (Text.units (c :: t ++ [n])) =
      ((d.scanned u).step d [c]).feed d (Text.units (t ++ [n])) := rfl
  rw [d.scanned_append, hfeed, hs.step_mark h (d.tidy_scanned h u) hc,
    Scanner.feed_comment rfl ht hn]
  rfl

/-- Behind a header line it is, too, if no run is in progress in front of it. -/
theorem Dialect.scanned_header (hp : (d.scanned u).phase = .between)
    (hc : d.plays .sharp [c] = true) (he : d.plays .header [e] = true) (ht : d.OneLine t) :
    d.scanned (u ++ (c :: e :: t ++ [n])) = (d.scanned u).nextLine d := by
  have hfeed : (d.scanned u).feed d (Text.units (c :: e :: t ++ [n])) =
      (((d.scanned u).step d [c]).step d [e]).feed d (Text.units (t ++ [n])) := rfl
  rw [d.scanned_append, hfeed, hs.step_header h hp hc he, Scanner.feed_comment rfl ht hn,
    Scanner.nextLine, Scanner.finish, hp]

/-- Behind a bare newline it is, too, if no run is in progress that takes the newline in. -/
theorem Dialect.scanned_newline (hb : d.isBlank [n] = true)
    (hr : ∀ r, (d.scanned u).phase = .run r → d.plays .sharp r.head = false) :
    d.scanned (u ++ [n]) = (d.scanned u).nextLine d := by
  have htidy := d.tidy_scanned h u
  rw [d.scanned_concat]
  exact Scanner.Settled.step_newline h ⟨hs.inString_finish h htidy, hr⟩ htidy hn hb

end

end

/-! ## 4. Sources that span lines -/

theorem oneLine_lines {t : Text} (ht : '\n' ∉ t) : Table.lines.dialect.OneLine t := by
  intro c hc
  refine (Dialect.plays_eq_false_iff _ .newline [c]).2 fun hm => ?_
  obtain rfl : '\n' = c := by simpa using (Option.some.inj hm : ['\n'] = [c])
  exact ht hc

/-- **Comments are transparent.**  Let a text leave the scanner outside strings and comments, and
let a comment and another text stand behind it.

* It does not matter what the comment says.
* A bare newline in its place gives the same tokens, unless a run that begins with the sharp is in
  progress there.
* So does a header line, if no run is in progress at all.
* The tokens are always those of the two texts, the second ones moved down to where they stand; and
  a run that is in progress in front of the comment is the last token of the first text as it is. -/
theorem tokenize_comment {u c c' : Text}
    (hs : (Table.lines.dialect.scanned u).inString = false)
    (hp : (Table.lines.dialect.scanned u).phase ≠ .comment) (hc : '\n' ∉ c) (hc' : '\n' ∉ c')
    (v : Text) :
    let tokens (t : Text) : List Token := Table.lines.dialect.tokenize (Text.units t)
    let commented : List Token := tokens (u ++ ';' :: c ++ '\n' :: v)
    commented = tokens (u ++ ';' :: c' ++ '\n' :: v) ∧
      ((∀ r, (Table.lines.dialect.scanned u).phase = .run r → r.head ≠ ['#']) →
        commented = tokens (u ++ '\n' :: v)) ∧
      ((Table.lines.dialect.scanned u).phase = .between →
        tokens (u ++ '#' :: '!' :: c ++ '\n' :: v) = tokens (u ++ '\n' :: v)) ∧
      commented = tokens u ++ (tokens v).map (Token.move ⟨0, u.count '\n' + 1⟩) ∧
      ∀ r, (Table.lines.dialect.scanned u).phase = .run r →
        tokens u = (Table.lines.dialect.scanned u).tokens ++ [r.token] := by
  intro tokens commented
  have h := Dialect.lines_regular
  have hopen : (Table.lines.dialect.scanned u).Open := ⟨hs, hp⟩
  have hn : Table.lines.dialect.plays .newline ['\n'] = true := by decide
  -- Whatever ends the line of `u`, the tokens are those of `u` and then those of `v`.
  have hnext : ∀ w : Text, Table.lines.dialect.scanned (u ++ w) =
        (Table.lines.dialect.scanned u).nextLine Table.lines.dialect →
      tokens (u ++ w ++ v) = tokens u ++ (tokens v).map (Token.move ⟨0, u.count '\n' + 1⟩) := by
    intro w hw
    rw [← newlines_lines]
    exact Table.lines.dialect.tokenize_nextLine hw
  have hcomment : ∀ c : Text, '\n' ∉ c → tokens (u ++ ';' :: c ++ '\n' :: v) =
      tokens u ++ (tokens v).map (Token.move ⟨0, u.count '\n' + 1⟩) := by
    intro c hc
    have := hnext (';' :: c ++ ['\n'])
      (Dialect.scanned_comment h hopen hn (by decide) (oneLine_lines hc))
    simpa using this
  have hnewline : (∀ r, (Table.lines.dialect.scanned u).phase = .run r → r.head ≠ ['#']) →
      tokens (u ++ '\n' :: v) =
        tokens u ++ (tokens v).map (Token.move ⟨0, u.count '\n' + 1⟩) := by
    intro hr
    have := hnext ['\n'] (Dialect.scanned_newline h hopen hn (by decide) ?_)
    · simpa using this
    · intro r hrun
      rw [Dialect.plays_eq_false_iff]
      exact fun hm => hr r hrun (Option.some.inj hm).symm
  refine ⟨(hcomment c hc).trans (hcomment c' hc').symm, ?_, ?_, hcomment c hc, ?_⟩
  · intro hr
    exact (hcomment c hc).trans (hnewline hr).symm
  · intro hbetween
    have := hnext ('#' :: '!' :: c ++ ['\n'])
      (Dialect.scanned_header h hopen hn hbetween (by decide) (by decide) (oneLine_lines hc))
    rw [hnewline (by simp [hbetween]), ← this]
    simp
  · intro r hrun
    simp [tokens, Dialect.tokenize_eq, Scanner.finish, hrun]

/-- A quote in a comment enters no string, the tag in front of the comment does not take it in, and
a header line behind a bracket is as good as a newline. -/
theorem tokenize_comment_behind_tag :
    let tokens (t : Text) : List Token := Table.lines.dialect.tokenize (Text.units t)
    let tag := Table.lines.dialect.scanned ['(', '#', 'x']
    let bracket := Table.lines.dialect.scanned ['(']
    (tag.inString = false ∧ tag.phase = .run ⟨['#'], [['x']], 1, 2⟩) ∧
      tokens ['(', '#', 'x', ';', '"', '\n', 'b', ')'] =
        [⟨['('], some 1, some 1⟩, ⟨['#', 'x'], some 1, some 2⟩, ⟨['b'], some 2, some 1⟩,
          ⟨[')'], some 2, some 2⟩] ∧
      (bracket.inString = false ∧ bracket.phase = .between) ∧
      tokens ['(', '#', '!', '"', '\n', 'b', ')'] = tokens ['(', '\n', 'b', ')'] := by
  intro tokens tag bracket
  have hquote : '\n' ∉ ['"'] := by decide
  have htag : tag.inString = false ∧ tag.phase = .run ⟨['#'], [['x']], 1, 2⟩ := by decide
  have hbracket : bracket.inString = false ∧ bracket.phase = .between := by decide
  have htag' : tag.phase ≠ .comment := by simp [htag.2]
  have hbracket' : bracket.phase ≠ .comment := by simp [hbracket.2]
  obtain ⟨-, -, -, hcommented, -⟩ := tokenize_comment htag.1 htag' hquote hquote ['b', ')']
  obtain ⟨-, -, hheader, -⟩ := tokenize_comment hbracket.1 hbracket' hquote hquote ['b', ')']
  exact ⟨htag, hcommented.trans (by decide), hbracket, hheader hbracket.2⟩

end SharpForms
