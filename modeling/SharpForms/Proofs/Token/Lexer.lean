/-
# The scanner as a lexer by spans

The scanner goes character by character and keeps a run in progress.  `lex` says what it finds
without a state machine: it looks ahead over whole spans of the text, and all that it carries from
one span to the next is the string flag.

* blanks drop out; so do comments and header lines, through the next newline, outside strings;
* a bracket or the quote is a token, and the quote turns the flag over;
* anything else begins a run, which reaches as far as characters can belong to it; a run that
  begins with the sharp takes the blank or delimiter behind it as well, and if that is the quote
  the flag is set.

`texts_tokenize_eq_lex`: in a regular dialect the scanner finds exactly these tokens.
-/
import SharpForms.Proofs.Token.Invariants

namespace SharpForms

/-! ## 1. The lexer -/

namespace Dialect

variable (d : Dialect)

/-- The character can belong to a run; inside strings a comment mark can. -/
def inRun (flag : Bool) (c : Char) : Bool :=
  !d.isBlank [c] && !d.isDelimiter [c] && (flag || !d.plays .comment [c])

/-- The run that a character begins, as far as it reaches. -/
def runText (flag : Bool) (c : Char) (t : Text) : Text := c :: t.takeWhile (d.inRun flag)

/-- What comes behind the next newline. -/
def afterLine (t : Text) : Text := (t.dropWhile fun c => !d.plays .newline [c]).tail

/-- The text begins with the header mark. -/
def startsHeader : Text → Bool
  | [] => false
  | c :: _ => d.plays .header [c]

theorem length_dropWhile_le (p : Char → Bool) (t : Text) : (t.dropWhile p).length ≤ t.length :=
  (List.dropWhile_suffix p).length_le

/-- What a run stops at does not belong to it. -/
theorem not_inRun_of_dropWhile {p : Char → Bool} {t rest : Text} {e : Char}
    (h : t.dropWhile p = e :: rest) : p e = false := by
  have := List.head?_dropWhile_not p t
  rw [h] at this
  exact this

/-- A run holds no delimiter. -/
theorem not_delimiter_of_mem_runText {flag : Bool} {c : Char} {t : Text}
    (hc : d.isDelimiter [c] = false) : ∀ x ∈ d.runText flag c t, d.isDelimiter [x] = false := by
  intro x hx
  rcases List.mem_cons.1 hx with rfl | hx
  · exact hc
  · have := List.all_eq_true.1 List.all_takeWhile x hx
    simp only [inRun, Bool.and_eq_true, Bool.not_eq_true'] at this
    exact this.1.2

theorem length_afterLine_le (t : Text) : (d.afterLine t).length ≤ t.length := by
  have := length_dropWhile_le (fun c => !d.plays .newline [c]) t
  rw [afterLine, List.length_tail]
  omega

/-- The tokens of a text by spans, from a given string flag on. -/
def lex (flag : Bool) : Text → List Text
  | [] => []
  | c :: t =>
    if d.isBlank [c] then lex flag t
    else if !flag && d.plays .comment [c] then lex flag (d.afterLine t)
    else if d.isDelimiter [c] then [c] :: lex (flag ^^ d.plays .quote [c]) t
    else if !flag && d.plays .sharp [c] && d.startsHeader t then lex flag (d.afterLine t.tail)
    else
      match _h : t.dropWhile (d.inRun flag) with
      | [] => [d.runText flag c t]
      | e :: rest =>
        if d.plays .sharp [c] && (d.isBlank [e] || d.isDelimiter [e]) then
          (d.runText flag c t ++ [e]) :: lex (flag || d.plays .quote [e]) rest
        else d.runText flag c t :: lex flag (e :: rest)
termination_by t => t.length
decreasing_by
  all_goals
    have h1 := d.length_afterLine_le t
    have h2 := d.length_afterLine_le t.tail
    have h3 := length_dropWhile_le (d.inRun flag) t
    simp_all only [List.length_cons, List.length_tail]
    omega

end Dialect

/-! ## 2. What the scanner makes of a span -/

namespace Scanner

variable {d : Dialect} {s : Scanner} {r : Run} {c : Char} {t : Text}

/-- The texts of all tokens, found and to come, when this is left of the text. -/
def texts (d : Dialect) (s : Scanner) (t : Text) : List Text :=
  ((s.feed d (Text.units t)).finish d).tokens.map Token.text

@[simp] theorem texts_nil : s.texts d [] = (s.finish d).tokens.map Token.text := rfl

theorem texts_cons : s.texts d (c :: t) = (s.step d [c]).texts d t := rfl

/-- **A comment drops out.**  In the middle of a comment the scanner goes on as a scanner between
tokens goes on behind the next newline. -/
theorem texts_comment (hp : s.phase = .comment) :
    ∃ s' : Scanner, s'.phase = .between ∧ s'.inString = s.inString ∧ s'.tokens = s.tokens ∧
      s.texts d t = s'.texts d (d.afterLine t) := by
  induction t generalizing s with
  | nil =>
    refine ⟨{ s with phase := .between }, rfl, rfl, rfl, ?_⟩
    simp [Dialect.afterLine, finish, hp, tokens]
  | cons c t ih =>
    rw [texts_cons]
    cases hn : d.plays .newline [c] with
    | true =>
      rw [(Effect.endComment hp hn).eq_step]
      refine ⟨{ s.advance d [c] with phase := .between }, rfl, ?_, ?_, ?_⟩
      · simp
      · simp [tokens]
      · simp [Dialect.afterLine, hn]
    | false =>
      rw [(Effect.skipComment hp hn).eq_step]
      obtain ⟨s', h1, h2, h3, h4⟩ := ih (s := { s.advance d [c] with phase := .comment }) rfl
      refine ⟨s', h1, by simpa using h2, by simpa [tokens] using h3, ?_⟩
      rw [h4]
      simp [Dialect.afterLine, hn]

/-- A character that belongs to a run does. -/
theorem inRun_iff {flag : Bool} :
    d.inRun flag c = true ↔
      d.isBlank [c] = false ∧ d.isDelimiter [c] = false ∧
        (flag = true ∨ d.plays .comment [c] = false) := by
  simp [Dialect.inRun, and_assoc]

theorem opensComment_eq_false_of_inRun (hc : d.inRun s.inString c = true) :
    s.opensComment d [c] = false := by
  rcases (inRun_iff.1 hc).2.2 with hf | hf <;> simp [opensComment, hf]

/-- **A run grows over what belongs to it.**  The characters behind it that belong to a run go into
it, unless the first of them makes a header line of it. -/
theorem texts_run {body : Text} (hp : s.phase = .run r)
    (hbody : ∀ c ∈ body, d.inRun s.inString c = true)
    (hh : ∀ c ∈ body.head?, s.opensHeader d r [c] = false) :
    ∃ (s' : Scanner) (r' : Run), s'.phase = .run r' ∧ r'.head = r.head ∧ r'.text = r.text ++ body ∧
      s'.inString = s.inString ∧ s'.tokens = s.tokens ∧
      ∀ t, s.texts d (body ++ t) = s'.texts d t := by
  induction body generalizing s r with
  | nil => exact ⟨s, r, hp, rfl, by simp, rfl, rfl, fun t => rfl⟩
  | cons c body ih =>
    have hc := hbody c List.mem_cons_self
    have hstep := (Effect.growRun r hp (hh c rfl) (opensComment_eq_false_of_inRun hc)
      (inRun_iff.1 hc).1 (inRun_iff.1 hc).2.1).eq_step
    obtain ⟨s', r', h1, h2, h3, h4, h5, h6⟩ :=
      ih (s := { s.advance d [c] with phase := .run (r.push [c]) }) (r := r.push [c]) rfl
        (fun e he => by simpa using hbody e (List.mem_cons_of_mem c he))
        (fun e _ => by simp [opensHeader, Run.push])
    refine ⟨s', r', h1, h2, ?_, by simpa using h4, by simpa [tokens] using h5, ?_⟩
    · rw [h3, Run.text_push, List.append_assoc]
      rfl
    · intro t
      rw [List.cons_append, texts_cons, hstep]
      exact h6 t

/-! ## 3. Span by span -/

/-- A character between tokens that is none of the others begins a run, over all the span of
characters that belong to it. -/
theorem texts_startRun (hp : s.phase = .between) (hb : d.isBlank [c] = false)
    (hc : s.opensComment d [c] = false) (hd : d.isDelimiter [c] = false)
    (hh : (!s.inString && d.plays .sharp [c] && d.startsHeader t) = false) :
    ∃ (s' : Scanner) (r : Run), s'.phase = .run r ∧ r.head = [c] ∧
      r.text = d.runText s.inString c t ∧
      s'.inString = s.inString ∧ s'.tokens = s.tokens ∧
      s.texts d (c :: t) = s'.texts d (t.dropWhile (d.inRun s.inString)) := by
  let start : Scanner := { s.advance d [c] with phase := .run ⟨[c], [], s.line, s.col + 1⟩ }
  have hflag : start.inString = s.inString := by simp [start]
  have hbody : ∀ e ∈ t.takeWhile (d.inRun s.inString), d.inRun start.inString e = true := by
    rw [hflag]
    intro e he
    exact List.all_eq_true.1 List.all_takeWhile e he
  have hhead : ∀ e ∈ (t.takeWhile (d.inRun s.inString)).head?,
      start.opensHeader d ⟨[c], [], s.line, s.col + 1⟩ [e] = false := by
    intro e he
    cases t with
    | nil => simp at he
    | cons e' t =>
      cases hin : d.inRun s.inString e' with
      | false => simp [hin] at he
      | true =>
        obtain rfl : e' = e := by simpa [hin] using he
        simpa [opensHeader, hflag, Dialect.startsHeader] using hh
  obtain ⟨s', r, h1, h2, h3, h4, h5, h6⟩ := texts_run rfl hbody hhead
  refine ⟨s', r, h1, h2, h3, h4.trans hflag, by simpa [start, tokens] using h5, ?_⟩
  rw [texts_cons, (Effect.startRun hp hc hb hd).eq_step, ← h6, List.takeWhile_append_dropWhile]

/-- A sharp that begins a run, with the header mark behind it, drops out with its line. -/
theorem texts_header {e : Char} (hp : s.phase = .between) (hb : d.isBlank [c] = false)
    (hc : s.opensComment d [c] = false) (hd : d.isDelimiter [c] = false)
    (hh : (!s.inString && d.plays .sharp [c] && d.plays .header [e]) = true) :
    ∃ s' : Scanner, s'.phase = .between ∧ s'.inString = s.inString ∧ s'.tokens = s.tokens ∧
      s.texts d (c :: e :: t) = s'.texts d (d.afterLine t) := by
  let start : Scanner := { s.advance d [c] with phase := .run ⟨[c], [], s.line, s.col + 1⟩ }
  have hhead : start.opensHeader d ⟨[c], [], s.line, s.col + 1⟩ [e] = true := by
    simpa [opensHeader, start] using hh
  obtain ⟨s', h1, h2, h3, h4⟩ := texts_comment (d := d)
    (s := { start.advance d [e] with phase := .comment }) (t := t) rfl
  refine ⟨s', h1, by simpa [start] using h2, by simpa [start, tokens] using h3, ?_⟩
  rw [texts_cons, (Effect.startRun hp hc hb hd).eq_step, texts_cons,
    (Effect.header _ rfl hhead).eq_step, h4]

/-- What stops a run is a blank, a delimiter or the start of a comment. -/
theorem stops_of_not_inRun (hc : d.inRun s.inString c = false) :
    d.isBlank [c] = true ∨ d.isDelimiter [c] = true ∨ s.opensComment d [c] = true := by
  cases hb : d.isBlank [c] <;> cases hd : d.isDelimiter [c] <;>
    simp_all [Dialect.inRun, opensComment]

section

variable (h : d.Regular)
include h

/-- The header mark never stops a run. -/
theorem not_header_of_not_inRun {flag : Bool} (hc : d.inRun flag c = false) :
    d.plays .header [c] = false := by
  refine (d.plays_eq_false_iff .header [c]).2 fun hm => ?_
  have hin : d.inRun flag c = true := by
    refine inRun_iff.2 ⟨h.not_blank _ _ rfl hm, ?_, .inr ?_⟩
    · exact h.isDelimiter_eq_false rfl (by simp) (by simp) (by simp) hm
    · exact h.not_plays rfl rfl (by simp) hm
  rw [hc] at hin
  cases hin

/-- A run that begins with the sharp takes the blank or delimiter that stops it. -/
theorem texts_glue {e : Char} (hp : s.phase = .run r) (hin : d.inRun s.inString e = false)
    (he : d.isBlank [e] = true ∨ d.isDelimiter [e] = true) (hs : d.plays .sharp r.head = true) :
    s.texts d (e :: t) = ((s.advance d [e]).emit d (r.push [e]).token).texts d t := by
  have hh : s.opensHeader d r [e] = false := by
    simp [opensHeader, not_header_of_not_inRun h hin]
  rw [texts_cons, (Effect.glue r hp hh (not_opensComment h he) he hs).eq_step]

/-- Any other run ends in front of what stops it. -/
theorem texts_stop {e : Char} (hp : s.phase = .run r) (hin : d.inRun s.inString e = false)
    (hs : d.plays .sharp r.head = true → d.isBlank [e] = false ∧ d.isDelimiter [e] = false)
    (hr : ∀ c ∈ r.text, d.isDelimiter [c] = false) :
    s.texts d (e :: t) = (s.emit d r.token).texts d (e :: t) := by
  have hh : s.opensHeader d r [e] = false := by
    simp [opensHeader, not_header_of_not_inRun h hin]
  have hstop := stops_of_not_inRun hin
  have hsharp : d.plays .sharp r.head = false ∨ s.opensComment d [e] = true := by
    cases hps : d.plays .sharp r.head with
    | false => exact .inl rfl
    | true => simpa [(hs hps).1, (hs hps).2] using hstop
  rw [texts_cons, texts_cons, step_of_stops hp hh hstop hsharp]
  exact h.inStringAfter_of_not_delimiter hr _

/-- **Between tokens the scanner is the lexer.** -/
theorem texts_eq_lex (hp : s.phase = .between) :
    s.texts d t = s.tokens.map Token.text ++ d.lex s.inString t := by
  obtain ⟨flag, hf⟩ : ∃ flag, s.inString = flag := ⟨_, rfl⟩
  rw [hf]
  fun_induction Dialect.lex d flag t generalizing s with
  | case1 flag => simp [finish, hp]
  | case2 flag c t hb ih =>
    have hc : s.opensComment d [c] = false := not_opensComment h (.inl hb)
    rw [texts_cons, (Effect.skipBlank hp hc hb).eq_step, ih rfl (by simpa using hf)]
    simp [tokens]
  | case3 flag c t hb hc ih =>
    have hc' : s.opensComment d [c] = true := by rw [opensComment, hf]; exact hc
    rw [texts_cons, (Effect.startComment hp hc').eq_step]
    obtain ⟨s', h1, h2, h3, h4⟩ := texts_comment (d := d)
      (s := { s.advance d [c] with phase := .comment }) (t := t) rfl
    rw [h4, ih h1 (by simpa [h2] using hf), h3]
    simp [tokens]
  | case4 flag c t hb hc hd ih =>
    rw [Bool.not_eq_true] at hb
    have hc' : s.opensComment d [c] = false := not_opensComment h (.inr hd)
    rw [texts_cons, (Effect.delimiter hp hc' hb hd).eq_step, ih rfl ?_]
    · simp
    · simp [hf, h.inStringAfter_of_delimiter hd]
  | case5 flag c t hb hc hd hh ih =>
    rw [Bool.not_eq_true] at hb hc hd
    have hc' : s.opensComment d [c] = false := by rw [opensComment, hf, hc]
    cases t with
    | nil => simp [Dialect.startsHeader] at hh
    | cons e t =>
      obtain ⟨s', h1, h2, h3, h4⟩ := texts_header hp hb hc' hd (by rw [hf]; exact hh) (t := t)
      rw [h4, ← h3]
      exact ih h1 (h2.trans hf)
  | case6 flag c t hb hc hd hh hrest =>
    rw [Bool.not_eq_true] at hb hc hd hh
    subst hf
    obtain ⟨s', r, h1, -, h3, -, h5, h6⟩ := texts_startRun hp hb hc hd hh
    rw [h6, hrest]
    simp [finish, h1, h3, h5, Run.token]
  | case7 flag c t hb hc hd hh e rest hrest hglue ih =>
    rw [Bool.not_eq_true] at hb hc hd hh
    rw [Bool.and_eq_true, Bool.or_eq_true] at hglue
    subst hf
    obtain ⟨s', r, h1, h2, h3, h4, h5, h6⟩ := texts_startRun hp hb hc hd hh
    have htext : (r.push [e]).text = d.runText s.inString c t ++ [e] := by rw [Run.text_push, h3]
    have hsharp : d.StartsSharp (d.runText s.inString c t ++ [e]) := (d.plays_iff _ _).1 hglue.1
    rw [h6, hrest, texts_glue h h1 (by rw [h4]; exact Dialect.not_inRun_of_dropWhile hrest) hglue.2
      (by rw [h2]; exact hglue.1), ih rfl ?_]
    · simp [htext, h5, Run.token]
    · have hlast : (d.runText s.inString c t ++ [e]).getLast? = some e := List.getLast?_concat
      simp [Run.token, htext, h4, h.inStringAfter_of_startsSharp hsharp hlast]
  | case8 flag c t hb hc hd hh e rest hrest hglue ih =>
    rw [Bool.not_eq_true] at hb hc hd hh
    subst hf
    obtain ⟨s', r, h1, h2, h3, h4, h5, h6⟩ := texts_startRun hp hb hc hd hh
    have hr : ∀ x ∈ r.text, d.isDelimiter [x] = false := by
      rw [h3]
      exact d.not_delimiter_of_mem_runText hd
    rw [h6, hrest, texts_stop h h1 (by rw [h4]; exact Dialect.not_inRun_of_dropWhile hrest) ?_ hr,
      ih rfl ?_]
    · simp [h3, h5, Run.token]
    · simpa [Run.token, h4] using h.inStringAfter_of_not_delimiter hr s.inString
    · simpa [h2] using hglue

end

end Scanner

/-! ## 4. Whole texts -/

/-- **The scanner finds exactly the tokens of the lexer.** -/
theorem Dialect.texts_tokenize_eq_lex {d : Dialect} (h : d.Regular) (t : Text) :
    (d.tokenize (Text.units t)).map Token.text = d.lex false t :=
  Scanner.texts_eq_lex h rfl

/-- A tag that enters a string, a comment mark that the string keeps, a comment behind the string,
and a header line: by the lexer, since the scanner says so. -/
theorem Dialect.lex_tag_and_comments :
    Table.lines.dialect.Regular ∧
      Table.lines.dialect.lex false
        ['#', 'a', '"', ';', '"', 'b', ';', '(', '\n', '#', '!', '(', '\n', '#'] =
        [['#', 'a', '"'], [';'], ['"'], ['b'], ['#']] :=
  ⟨lines_regular, (texts_tokenize_eq_lex lines_regular _).symm.trans (by decide)⟩

end SharpForms
