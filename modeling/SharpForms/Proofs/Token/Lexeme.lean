/-
# Tokens that are cut off again

A LEXEME is a text that the lexer can cut off as one token: a delimiter, a run, or a tag with the
character that stopped it.  All tokens of a text are lexemes for the string flag in front of them
(`lexed_lex`), and a lexeme written down again, in front of something that stops it, is cut off
again (`lex_append_of_tag`, `lex_append_of_literal`).

A tag that nothing stopped is BARE.  It is the one lexeme that may not be written in front of
anything, since it would take in what comes next; `Proofs/Token/Bare.lean` says where it can stand.

The characters of a string that holds neither blanks nor sharps are cut up in the same way each
time, whatever tokens they came from (`lex_string`).
-/
import SharpForms.Proofs.Token.Lexer

namespace SharpForms
namespace Dialect

variable {d : Dialect} {flag : Bool} {c e : Char} {t body rest : Text}

/-! ## 1. Marks and runs -/

/-- Nothing that could go on a run stands at the beginning of the text. -/
def Stops (d : Dialect) (flag : Bool) (t : Text) : Prop := ∀ c ∈ t.head?, d.inRun flag c = false

theorem stops_nil : d.Stops flag [] := by simp [Stops]

@[simp] theorem stops_cons : d.Stops flag (c :: t) ↔ d.inRun flag c = false := by simp [Stops]

/-- Blanks and delimiters stop runs. -/
theorem not_inRun (h : d.isBlank [c] = true ∨ d.isDelimiter [c] = true) :
    d.inRun flag c = false := by
  rcases h with h | h <;> simp [inRun, h]

section

variable (h : d.Regular)
include h

theorem Regular.not_blank_of_delimiter (hc : d.isDelimiter t = true) : d.isBlank t = false := by
  rcases (d.isDelimiter_iff t).1 hc with ⟨b, hm⟩ | ⟨b, hm⟩ | hm
  · exact h.not_blank _ _ rfl hm
  · exact h.not_blank _ _ rfl hm
  · exact h.not_blank _ _ rfl hm

theorem Regular.not_comment_of_delimiter (hc : d.isDelimiter t = true) :
    d.plays .comment t = false := by
  refine (d.plays_eq_false_iff .comment t).2 fun hm => ?_
  rw [h.isDelimiter_eq_false rfl (by simp) (by simp) (by simp) hm] at hc
  cases hc

/-- A delimiter is one character. -/
theorem Regular.single_of_delimiter (hc : d.isDelimiter t = true) : ∃ c, t = [c] := by
  rcases (d.isDelimiter_iff t).1 hc with ⟨b, hm⟩ | ⟨b, hm⟩ | hm
  · exact h.single _ _ rfl hm
  · exact h.single _ _ rfl hm
  · exact h.single _ _ rfl hm

/-- What stops a run does not make a header line of it. -/
theorem startsHeader_append (hrest : d.Stops flag rest) :
    d.startsHeader (body ++ rest) = d.startsHeader body := by
  cases body with
  | cons c body => rfl
  | nil =>
    cases rest with
    | nil => rfl
    | cons e rest => exact Scanner.not_header_of_not_inRun h (stops_cons.1 hrest)

end

/-! ## 2. The lexer's equations -/

@[simp] theorem lex_nil : d.lex flag [] = [] := by rw [lex]

theorem lex_blank (hc : d.isBlank [c] = true) : d.lex flag (c :: t) = d.lex flag t := by
  rw [lex, if_pos hc]

theorem lex_delimiter (h : d.Regular) (hc : d.isDelimiter [c] = true) :
    d.lex flag (c :: t) = [c] :: d.lex (flag ^^ d.plays .quote [c]) t := by
  rw [lex]
  simp [h.not_blank_of_delimiter hc, h.not_comment_of_delimiter hc, hc]

/-- A run and what stops it. -/
theorem lex_run (hrun : ∀ x ∈ c :: body, d.inRun flag x = true)
    (hheader : (!flag && d.plays .sharp [c] && d.startsHeader (body ++ rest)) = false)
    (hrest : d.Stops flag rest) :
    d.lex flag (c :: body ++ rest) =
      match rest with
      | [] => [c :: body]
      | e :: rest =>
        if d.plays .sharp [c] && (d.isBlank [e] || d.isDelimiter [e]) then
          (c :: body ++ [e]) :: d.lex (flag || d.plays .quote [e]) rest
        else (c :: body) :: d.lex flag (e :: rest) := by
  obtain ⟨hb, hd, hc⟩ := Scanner.inRun_iff.1 (hrun c List.mem_cons_self)
  have hcomment : (!flag && d.plays .comment [c]) = false := by
    rcases hc with hc | hc <;> simp [hc]
  have hbody : ∀ x ∈ body, d.inRun flag x = true := fun x hx => hrun x (List.mem_cons_of_mem c hx)
  have hdrop : rest.dropWhile (d.inRun flag) = rest ∧ rest.takeWhile (d.inRun flag) = [] := by
    cases rest with
    | nil => exact ⟨rfl, rfl⟩
    | cons e rest => simp [stops_cons.1 hrest]
  have htext : d.runText flag c (body ++ rest) = c :: body := by
    rw [runText, List.takeWhile_append_of_pos hbody, hdrop.2, List.append_nil]
  rw [List.cons_append, lex]
  simp only [hb, hcomment, hd, hheader, Bool.false_eq_true, if_false, htext]
  rw [List.dropWhile_append_of_pos hbody, hdrop.1]
  cases rest <;> rfl

/-! ## 3. Lexemes -/

/-- A text that the lexer can cut off as one token where the string flag is this. -/
inductive Lexeme (d : Dialect) (flag : Bool) : Text → Prop
  | delimiter {c : Char} : d.isDelimiter [c] = true → Lexeme d flag [c]
  | run {c : Char} {body : Text} : (∀ x ∈ c :: body, d.inRun flag x = true) →
      (!flag && d.plays .sharp [c] && d.startsHeader body) = false → Lexeme d flag (c :: body)
  | glued {c e : Char} {body : Text} : (∀ x ∈ c :: body, d.inRun flag x = true) →
      (!flag && d.plays .sharp [c] && d.startsHeader body) = false → d.plays .sharp [c] = true →
      d.isBlank [e] = true ∨ d.isDelimiter [e] = true → Lexeme d flag (c :: body ++ [e])

/-- A tag that nothing has stopped. -/
def Bare (d : Dialect) (t : Text) : Prop :=
  d.StartsSharp t ∧ ∀ e ∈ t.getLast?, d.isBlank [e] = false ∧ d.isDelimiter [e] = false

/-- A run that starts with the sharp is bare. -/
theorem bare_of_run (hrun : ∀ x ∈ c :: body, d.inRun flag x = true)
    (hs : d.plays .sharp [c] = true) : d.Bare (c :: body) := by
  refine ⟨(d.plays_iff _ _).1 hs, ?_⟩
  intro e he
  have := Scanner.inRun_iff.1 (hrun e (List.mem_of_getLast? he))
  exact ⟨this.1, this.2.1⟩

/-- A text that ends in a blank or a delimiter is not bare. -/
theorem not_bare_concat (he : d.isBlank [e] = true ∨ d.isDelimiter [e] = true) :
    ¬ d.Bare (t ++ [e]) := by
  rintro ⟨-, hlast⟩
  have := hlast e List.getLast?_concat
  simp [this.1, this.2] at he

/-! ## 4. Lexemes written down again -/

/-- **A tag that something has stopped is cut off again**, in front of anything. -/
theorem lex_append_of_tag (h : d.Regular) (ht : d.Lexeme flag t) (hs : d.StartsSharp t)
    (hbare : ¬ d.Bare t) (rest : Text) :
    d.lex flag (t ++ rest) = t :: d.lex (d.inStringAfter flag t) rest := by
  cases ht with
  | @delimiter c hc =>
    rcases (d.isDelimiter_iff [c]).1 hc with ⟨b, hm⟩ | ⟨b, hm⟩ | hm
    · exact absurd hs (h.not_startsSharp rfl (by simp) hm)
    · exact absurd hs (h.not_startsSharp rfl (by simp) hm)
    · exact absurd hs (h.not_startsSharp rfl (by simp) hm)
  | run hrun => exact absurd (bare_of_run hrun ((d.plays_iff .sharp [_]).2 hs)) hbare
  | @glued c e body hrun hheader hsharp he =>
    have hstop : d.Stops flag (e :: rest) := stops_cons.2 (not_inRun he)
    rw [← startsHeader_append h hstop] at hheader
    rw [List.append_assoc, List.singleton_append, lex_run hrun hheader hstop,
      h.inStringAfter_of_startsSharp hs List.getLast?_concat]
    simp [hsharp, he]

/-- A bare tag is cut off again at the end of a text. -/
theorem lex_of_bare (ht : d.Lexeme flag t) (hbare : d.Bare t) : d.lex flag t = [t] := by
  cases ht with
  | delimiter hc => exact absurd hbare (not_bare_concat (t := []) (.inr hc))
  | glued _ _ _ he => exact absurd hbare (not_bare_concat he)
  | @run c body hrun hheader =>
    have hlex : d.lex flag (c :: body ++ []) = [c :: body] :=
      lex_run hrun (by simpa using hheader) stops_nil
    rwa [List.append_nil] at hlex

/-- A run that is no tag is cut off again, and is not the quote. -/
theorem lex_run_append (h : d.Regular) (hrun : ∀ x ∈ c :: body, d.inRun flag x = true)
    (hs : d.plays .sharp [c] = false) :
    d.mark .quote ≠ some (c :: body) ∧ ∀ rest, d.Stops flag rest →
      d.lex flag (c :: body ++ rest) = (c :: body) :: d.lex flag rest := by
  have hdelim : ∀ x ∈ c :: body, d.isDelimiter [x] = false :=
    fun x hx => (Scanner.inRun_iff.1 (hrun x hx)).2.1
  refine ⟨(h.ne_quote_of_not_delimiter hdelim).1, ?_⟩
  intro rest hrest
  rw [lex_run hrun (by simp [hs]) hrest]
  cases rest with
  | nil => simp
  | cons e rest => simp [hs]

/-- **A lexeme that is neither a delimiter nor a tag is cut off again**, in front of anything that
stops a run. -/
theorem lex_append_of_literal (h : d.Regular) (ht : d.Lexeme flag t)
    (hd : d.isDelimiter t = false) (hs : ¬ d.StartsSharp t) (hrest : d.Stops flag rest) :
    d.lex flag (t ++ rest) = t :: d.lex flag rest := by
  cases ht with
  | delimiter hc => rw [hc] at hd; cases hd
  | glued _ _ hsharp _ => exact absurd ((d.plays_iff .sharp [_]).1 hsharp) hs
  | @run c body hrun hheader =>
    have hsharp : d.plays .sharp [c] = false := (d.plays_eq_false_iff .sharp [c]).2 hs
    exact (lex_run_append h hrun hsharp).2 rest hrest

/-! ## 5. The tokens of a text are lexemes -/

/-- Each token is a lexeme for the string flag in front of it. -/
inductive Lexed (d : Dialect) : Bool → List Text → Prop
  | nil {flag : Bool} : Lexed d flag []
  | cons {flag : Bool} {t : Text} {ts : List Text} :
      d.Lexeme flag t → Lexed d (d.inStringAfter flag t) ts → Lexed d flag (t :: ts)

/-- The run that a text begins with makes a header line only if the text does. -/
theorem startsHeader_takeWhile {p : Char → Bool} (ht : d.startsHeader t = false) :
    d.startsHeader (t.takeWhile p) = false := by
  cases t with
  | nil => rfl
  | cons e t => cases hp : p e <;> simp_all [startsHeader]

/-- What the lexer takes for a run holds only what belongs to one, and begins no header line. -/
theorem runText_spec (hb : ¬ d.isBlank [c] = true)
    (hc : ¬ (!flag && d.plays .comment [c]) = true) (hd : ¬ d.isDelimiter [c] = true)
    (hh : ¬ (!flag && d.plays .sharp [c] && d.startsHeader t) = true) :
    (∀ x ∈ d.runText flag c t, d.inRun flag x = true) ∧
      (!flag && d.plays .sharp [c] && d.startsHeader (t.takeWhile (d.inRun flag))) = false := by
  refine ⟨?_, ?_⟩
  · intro x hx
    rcases List.mem_cons.1 hx with rfl | hx
    · refine Scanner.inRun_iff.2 ⟨Bool.eq_false_iff.2 hb, Bool.eq_false_iff.2 hd, ?_⟩
      cases flag with
      | false => exact .inr (Bool.eq_false_iff.2 hc)
      | true => exact .inl rfl
    · exact List.all_eq_true.1 List.all_takeWhile x hx
  · cases hht : d.startsHeader t with
    | false => simp [startsHeader_takeWhile hht]
    | true =>
      rw [hht] at hh
      cases flag <;> simp_all

/-- **The tokens of a text are lexemes.** -/
theorem lexed_lex (h : d.Regular) (flag : Bool) (t : Text) : d.Lexed flag (d.lex flag t) := by
  fun_induction lex d flag t with
  | case1 flag => exact .nil
  | case2 flag c t hb ih | case3 flag c t hb hc ih | case5 flag c t hb hc hd hh ih => exact ih
  | case4 flag c t hb hc hd ih =>
    refine .cons (.delimiter hd) ?_
    rw [h.inStringAfter_of_delimiter hd]
    exact ih
  | case6 flag c t hb hc hd hh hrest =>
    obtain ⟨hrun, hheader⟩ := runText_spec hb hc hd hh
    exact .cons (.run hrun hheader) .nil
  | case7 flag c t hb hc hd hh e rest hrest hglue ih =>
    obtain ⟨hrun, hheader⟩ := runText_spec hb hc hd hh
    rw [Bool.and_eq_true, Bool.or_eq_true] at hglue
    have hsharp : d.StartsSharp (d.runText flag c t ++ [e]) := (d.plays_iff .sharp [c]).1 hglue.1
    refine .cons (.glued hrun hheader hglue.1 hglue.2) ?_
    rw [h.inStringAfter_of_startsSharp hsharp List.getLast?_concat]
    exact ih
  | case8 flag c t hb hc hd hh e rest hrest hglue ih =>
    obtain ⟨hrun, hheader⟩ := runText_spec hb hc hd hh
    refine .cons (.run hrun hheader) ?_
    rw [h.inStringAfter_of_not_delimiter fun x hx => (Scanner.inRun_iff.1 (hrun x hx)).2.1]
    exact ih

/-! ## 6. The characters of a string -/

/-- The character is no blank, no quote and no sharp.  Of a string without sharps all characters
are like this. -/
def FitsString (d : Dialect) (c : Char) : Prop :=
  d.isBlank [c] = false ∧ d.plays .quote [c] = false ∧ d.plays .sharp [c] = false

theorem lex_quote (h : d.Regular) {q : Char} (hq : d.mark .quote = some [q]) :
    d.lex flag (q :: t) = [q] :: d.lex (!flag) t := by
  have hplays : d.plays .quote [q] = true := (d.plays_iff _ _).2 hq
  rw [lex_delimiter h ((d.isDelimiter_iff _).2 (.inr (.inr hq))), hplays, Bool.xor_true]

/-- **The characters of a string are cut up as they are in front of its end.**  None of the tokens
is the quote, and joined they are the characters. -/
theorem lex_string (h : d.Regular) {q : Char} (hq : d.mark .quote = some [q])
    (ht : ∀ c ∈ t, d.FitsString c) :
    (d.lex true t).flatten = t ∧ (∀ w ∈ d.lex true t, d.mark .quote ≠ some w) ∧
      ∀ rest, d.lex true (t ++ q :: rest) = d.lex true t ++ [q] :: d.lex false rest := by
  have hstop : ∀ rest, d.Stops true (q :: rest) := by
    intro rest
    exact stops_cons.2 (not_inRun (.inr ((d.isDelimiter_iff _).2 (.inr (.inr hq)))))
  obtain ⟨flag, hflag⟩ : ∃ flag, flag = true := ⟨true, rfl⟩
  rw [← hflag] at hstop ⊢
  fun_induction lex d flag t with
  | case1 flag =>
    refine ⟨rfl, by simp, ?_⟩
    intro rest
    rw [List.nil_append, lex_quote h hq, hflag]
    rfl
  | case2 flag c t hb ih =>
    have := (ht c List.mem_cons_self).1
    rw [hb] at this
    cases this
  | case3 flag c t hb hc ih | case5 flag c t hb hc hd hh ih => simp [hflag] at *
  | case4 flag c t hb hc hd ih =>
    have hnot : d.plays .quote [c] = false := (ht c List.mem_cons_self).2.1
    rw [hnot, Bool.xor_false] at ih ⊢
    obtain ⟨h1, h2, h3⟩ := ih (fun x hx => ht x (List.mem_cons_of_mem c hx)) hstop hflag
    refine ⟨by simp [h1], ?_, ?_⟩
    · intro w hw
      rcases List.mem_cons.1 hw with rfl | hw
      · simpa [plays] using hnot
      · exact h2 w hw
    · intro rest
      rw [List.cons_append, lex_delimiter h hd, hnot, Bool.xor_false, h3]
      rfl
  | case6 flag c t hb hc hd hh hrest =>
    obtain ⟨hrun, -⟩ := runText_spec hb hc hd hh
    have htext : d.runText flag c t = c :: t := by
      rw [runText, ← List.append_nil (t.takeWhile _), ← hrest, List.takeWhile_append_dropWhile]
    rw [htext] at hrun ⊢
    obtain ⟨hne, happend⟩ := lex_run_append h hrun (ht c List.mem_cons_self).2.2
    refine ⟨by simp, by simpa using hne, ?_⟩
    intro rest
    rw [happend _ (hstop rest), lex_quote h hq, hflag]
    rfl
  | case7 flag c t hb hc hd hh e rest hrest hglue ih =>
    have := (ht c List.mem_cons_self).2.2
    simp [this] at hglue
  | case8 flag c t hb hc hd hh e rest hrest hglue ih =>
    obtain ⟨hrun, -⟩ := runText_spec hb hc hd hh
    obtain ⟨hne, happend⟩ := lex_run_append h hrun (ht c List.mem_cons_self).2.2
    have htext : c :: t = d.runText flag c t ++ e :: rest := by
      rw [runText, ← hrest, List.cons_append, List.takeWhile_append_dropWhile]
    have hmem : ∀ x ∈ e :: rest, d.FitsString x := by
      intro x hx
      refine ht x ?_
      rw [htext]
      exact List.mem_append_right _ hx
    obtain ⟨h1, h2, h3⟩ := ih hmem hstop hflag
    refine ⟨?_, ?_, ?_⟩
    · rw [List.flatten_cons, h1, htext]
    · intro w hw
      rcases List.mem_cons.1 hw with rfl | hw
      · exact hne
      · exact h2 w hw
    · intro rest'
      have hstop' : d.Stops flag (e :: rest ++ q :: rest') :=
        stops_cons.2 (not_inRun_of_dropWhile hrest)
      rw [htext, List.append_assoc, runText, happend _ hstop', h3]
      rfl

end Dialect
end SharpForms
