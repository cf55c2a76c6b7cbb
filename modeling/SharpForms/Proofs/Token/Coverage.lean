/-
# Every unit of a text is accounted for

In any dialect, also one in which roles meet, the scanner cuts a text into stretches: tokens, single
blanks, and whole comments (`Covered`).  Nothing is lost, nothing is taken twice, and every token
says where it starts, by the newlines in front of it.

The scanner is followed position by position.  Between two units it has covered the text up to
where it stands, or up to where the run or the comment began that it is in the middle of; that is
`Located`, which one unit preserves (`Located.step`).  `tokenize_covers` reads the stretches off at
the end.
-/
import SharpForms.Proofs.Token.Invariants

namespace SharpForms

/-! ## 1. Positions and stretches -/

/-- The positions of a text from `start` on up to, and without, `stop`. -/
structure Stretch where
  start : Nat
  stop : Nat
  deriving DecidableEq, Repr

/-- The position belongs to the stretch. -/
def Stretch.Holds (x : Stretch) (i : Nat) : Prop := x.start ≤ i ∧ i < x.stop

namespace Dialect

variable (d : Dialect) (us : List Text)

/-- The unit at the position ends a line. -/
def newlineAt (i : Nat) : Bool := us[i]?.any (d.plays .newline)

/-- The line of a position: one more than there are newlines in front of it. -/
def lineAt (i : Nat) : Nat := 1 + (us.take i).countP (d.plays .newline)

/-- The column of a position: how many units stand behind the last newline in front of it, the one
at the position included. -/
def charAt (i : Nat) : Nat :=
  ((us.take i).reverse.takeWhile fun u => !d.plays .newline u).length + 1

/-- The token that a stretch makes. -/
def tokenOn (x : Stretch) : Token :=
  ⟨(us.extract x.start x.stop).flatten, some (d.lineAt us x.start), some (d.charAt us x.start)⟩

/-- A comment starts at the position `i`, and what is commented out starts behind `j`: they are the
same if a comment mark stands there, and the header mark is at `j` if the sharp is right in front
of it. -/
def CommentStarts (i j : Nat) : Prop :=
  (i = j ∧ us[i]?.any (d.plays .comment) = true) ∨
    (i + 1 = j ∧ us[i]?.any (d.plays .sharp) = true ∧ us[j]?.any (d.plays .header) = true)

/-- The stretch is a whole comment: it goes through the first newline behind what starts it, or to
the end of the text. -/
def IsComment (x : Stretch) : Prop :=
  ∃ j, d.CommentStarts us x.start j ∧ j < x.stop ∧ x.stop ≤ us.length ∧
    (∀ k, j < k → k + 1 < x.stop → d.newlineAt us k = false) ∧
    (x.stop = us.length ∨ (j + 1 < x.stop ∧ d.newlineAt us (x.stop - 1) = true))

/-! ## 2. A text cut into stretches -/

/-- The text up to a position is made up of these tokens, one after the other, and of blanks and
comments between them. -/
inductive Covered : Nat → List Token → Prop
  | start : Covered 0 []
  | blank {p : Nat} {ts : List Token} {u : Text} :
      Covered p ts → us[p]? = some u → d.isBlank u = true → Covered (p + 1) ts
  | comment {p q : Nat} {ts : List Token} :
      Covered p ts → d.IsComment us ⟨p, q⟩ → Covered q ts
  | token {p q : Nat} {ts : List Token} :
      Covered p ts → p < q → q ≤ us.length → Covered q (ts ++ [d.tokenOn us ⟨p, q⟩])

/-- The position belongs to a comment that ends before `p` and meets none of the stretches. -/
def Skipped (p : Nat) (spans : List Stretch) (i : Nat) : Prop :=
  ∃ c : Stretch, d.IsComment us c ∧ c.Holds i ∧ c.stop ≤ p ∧
    ∀ x ∈ spans, x.stop ≤ c.start ∨ c.stop ≤ x.start

/-- The tokens stand on these stretches, which are in order, and what is in none of them up to the
position is a blank or belongs to a comment that meets none of them. -/
structure Layout (p : Nat) (ts : List Token) (spans : List Stretch) : Prop where
  tokens : ts = spans.map (d.tokenOn us)
  inside : ∀ x ∈ spans, x.start < x.stop ∧ x.stop ≤ p
  ordered : spans.Pairwise fun x y => x.stop ≤ y.start
  between : ∀ i u, i < p → us[i]? = some u → (∀ x ∈ spans, ¬ x.Holds i) →
    d.isBlank u = true ∨ d.Skipped us p spans i

variable {d us} {p q : Nat} {ts : List Token} {spans : List Stretch}

theorem CommentStarts.le {i j : Nat} (h : d.CommentStarts us i j) : i ≤ j := by
  rcases h with ⟨h, -⟩ | ⟨h, -⟩ <;> omega

theorem Skipped.mono (h : d.Skipped us p spans q) {p' : Nat} (hp : p ≤ p') :
    d.Skipped us p' spans q := by
  obtain ⟨c, hc, hin, hle, hd⟩ := h
  exact ⟨c, hc, hin, Nat.le_trans hle hp, hd⟩

/-- The stretches of a text that is covered can be listed. -/
theorem Covered.exists_layout (h : d.Covered us p ts) : ∃ spans, d.Layout us p ts spans := by
  induction h with
  | start => exact ⟨[], rfl, by simp, .nil, by simp⟩
  | @blank p ts u _ hu hb ih =>
    obtain ⟨spans, hl⟩ := ih
    refine ⟨spans, hl.tokens, ?_, hl.ordered, ?_⟩
    · intro x hx
      have := hl.inside x hx
      omega
    · intro i v hi hv hout
      rcases Nat.lt_succ_iff_lt_or_eq.1 hi with hi | rfl
      · exact (hl.between i v hi hv hout).imp_right fun hs => hs.mono (Nat.le_succ p)
      · rw [hu] at hv
        obtain rfl := Option.some.inj hv
        exact .inl hb
  | @comment p q ts _ hc ih =>
    obtain ⟨spans, hl⟩ := ih
    have hpq : p < q := by
      obtain ⟨j, hj, hlt, -⟩ := hc
      exact Nat.lt_of_le_of_lt hj.le hlt
    refine ⟨spans, hl.tokens, ?_, hl.ordered, ?_⟩
    · intro x hx
      have := hl.inside x hx
      omega
    · intro i u hi hu hout
      by_cases hip : i < p
      · exact (hl.between i u hip hu hout).imp_right fun hs => hs.mono (Nat.le_of_lt hpq)
      · refine .inr ⟨⟨p, q⟩, hc, ⟨Nat.le_of_not_lt hip, hi⟩, Nat.le_refl q, ?_⟩
        intro x hx
        exact .inl (hl.inside x hx).2
  | @token p q ts _ hpq hq ih =>
    obtain ⟨spans, hl⟩ := ih
    refine ⟨spans ++ [⟨p, q⟩], ?_, ?_, ?_, ?_⟩
    · rw [List.map_append, ← hl.tokens]
      rfl
    · intro x hx
      rcases List.mem_append.1 hx with hx | hx
      · have := hl.inside x hx
        omega
      · obtain rfl := List.mem_singleton.1 hx
        exact ⟨hpq, Nat.le_refl q⟩
    · refine List.pairwise_append.2 ⟨hl.ordered, List.pairwise_singleton _ _, ?_⟩
      intro x hx y hy
      obtain rfl := List.mem_singleton.1 hy
      exact (hl.inside x hx).2
    · intro i u hi hu hout
      have hip : i < p := by
        have := hout ⟨p, q⟩ (by simp)
        simp only [Stretch.Holds] at this
        omega
      rcases hl.between i u hip hu fun x hx => hout x (by simp [hx]) with hb | ⟨c, hc, hin, hle, hd⟩
      · exact .inl hb
      · refine .inr ⟨c, hc, hin, by omega, ?_⟩
        intro x hx
        rcases List.mem_append.1 hx with hx | hx
        · exact hd x hx
        · obtain rfl := List.mem_singleton.1 hx
          exact .inr hle

end Dialect

/-! ## 3. One position further -/

section

variable {d : Dialect} {us : List Text} {b p : Nat} {u : Text}

theorem Dialect.lineAt_succ (hu : us[p]? = some u) :
    d.lineAt us (p + 1) = d.lineAt us p + if d.plays .newline u then 1 else 0 := by
  simp [lineAt, List.take_add_one, hu, List.countP_append, List.countP_cons, Nat.add_assoc]

theorem Dialect.charAt_succ (hu : us[p]? = some u) :
    d.charAt us (p + 1) = if d.plays .newline u then 1 else d.charAt us p + 1 := by
  cases hn : d.plays .newline u <;> simp [charAt, List.take_add_one, hu, hn]

/-- A stretch with one more unit. -/
theorem extract_succ (hb : b ≤ p) (hu : us[p]? = some u) :
    us.extract b (p + 1) = us.extract b p ++ [u] := by
  have hsub : p + 1 - b = p - b + 1 := by omega
  have hget : (us.drop b)[p - b]? = some u := by
    rw [List.getElem?_drop, Nat.add_sub_cancel' hb]
    exact hu
  simp [List.extract_eq_take_drop, hsub, List.take_add_one, hget]

theorem extract_unit (hu : us[p]? = some u) : us.extract p (p + 1) = [u] := by
  rw [extract_succ (Nat.le_refl p) hu]
  simp

/-- A stretch that holds one unit only is one position long. -/
theorem eq_succ_of_extract (hb : b < p) (hp : p ≤ us.length) (hone : us.extract b p = [u]) :
    p = b + 1 ∧ us[b]? = some u := by
  have hlen := congrArg List.length hone
  simp only [List.extract_eq_take_drop, List.length_take, List.length_drop, List.length_cons,
    List.length_nil] at hlen
  obtain rfl : p = b + 1 := by omega
  have hget : us[b]? = some us[b] := List.getElem?_eq_getElem hp
  rw [extract_unit hget] at hone
  exact ⟨rfl, hget.trans (congrArg some (List.singleton_inj.1 hone))⟩

/-- The run holds the units from one position up to another one, and says where it started. -/
structure Run.Over (d : Dialect) (us : List Text) (r : Run) (b p : Nat) : Prop where
  lt : b < p
  units : r.units = us.extract b p
  line : r.line = d.lineAt us b
  char : r.char = d.charAt us b

/-- A run over a stretch becomes the stretch's token. -/
theorem Run.Over.token_eq {r : Run} (h : r.Over d us b p) : r.token = d.tokenOn us ⟨b, p⟩ := by
  simp [Run.token, Run.text, Dialect.tokenOn, h.units, h.line, h.char]

theorem Run.Over.push {r : Run} (h : r.Over d us b p) (hu : us[p]? = some u) :
    (r.push u).Over d us b (p + 1) where
  lt := Nat.lt_succ_of_lt h.lt
  units := by rw [Run.units_push, h.units, extract_succ (Nat.le_of_lt h.lt) hu]
  line := h.line
  char := h.char

end

/-! ## 4. The scanner on its way -/

namespace Scanner

variable {d : Dialect} {us : List Text} {p : Nat} {ts : List Token} {s s' : Scanner} {u : Text}

/-- What the scanner is in the middle of at a position, with what it has covered before that. -/
def Stands (d : Dialect) (us : List Text) (p : Nat) (ts : List Token) : Phase → Prop
  | .between => d.Covered us p ts
  | .run r => ∃ b, d.Covered us b ts ∧ r.Over d us b p
  | .comment => ∃ i j, d.Covered us i ts ∧ d.CommentStarts us i j ∧ j < p ∧
      ∀ k, j < k → k < p → d.newlineAt us k = false

/-- The scanner stands at a position of the text, and counts it right. -/
structure Located (d : Dialect) (us : List Text) (p : Nat) (s : Scanner) : Prop where
  le : p ≤ us.length
  line : s.line = d.lineAt us p
  col : s.col + 1 = d.charAt us p
  stands : Stands d us p s.tokens s.phase

theorem located_init (us : List Text) : Located d us 0 {} :=
  ⟨Nat.zero_le _, rfl, rfl, .start⟩

/-- What the unit at a position plays, somebody plays there. -/
theorem any_of_plays {r : Role} (hu : us[p]? = some u) (hr : d.plays r u = true) :
    us[p]?.any (d.plays r) = true := by
  simpa [hu] using hr

/-- A comment mark starts a comment at its own position. -/
theorem stands_comment (hcov : d.Covered us p ts) (hu : us[p]? = some u)
    (hc : s.opensComment d u = true) : Stands d us (p + 1) ts .comment := by
  rw [opensComment, Bool.and_eq_true] at hc
  exact ⟨p, p, hcov, .inl ⟨rfl, any_of_plays hu hc.2⟩, Nat.lt_succ_self p, by omega⟩

/-- A unit that is a token by itself is one of the text. -/
theorem Located.covered_unit (h : Located d us p s) (hu : us[p]? = some u)
    (hcov : d.Covered us p ts) :
    d.Covered us (p + 1) (ts ++ [⟨u, some s.line, some (s.col + 1 : Nat)⟩]) := by
  have htok : d.tokenOn us ⟨p, p + 1⟩ = ⟨u, some s.line, some (s.col + 1 : Nat)⟩ := by
    rw [h.line, h.col]
    simp [Dialect.tokenOn, extract_unit hu]
  rw [← htok]
  exact .token hcov (Nat.lt_succ_self p) (List.getElem?_eq_some_iff.1 hu).1

/-- A run that ends in front of the position is a token of the text. -/
theorem Located.covered_run (h : Located d us p s) {r : Run} (hp : s.phase = .run r) :
    d.Covered us p (s.tokens ++ [r.token]) := by
  have hstands := h.stands
  rw [hp] at hstands
  obtain ⟨b, hcov, hover⟩ := hstands
  rw [hover.token_eq]
  exact .token hcov hover.lt h.le

/-- **What one unit leaves the scanner in the middle of.** -/
theorem Effect.stands (he : Effect d s u s') (h : Located d us p s) (hu : us[p]? = some u) :
    Stands d us (p + 1) s'.tokens s'.phase := by
  have hstands := h.stands
  have hlt : p < us.length := (List.getElem?_eq_some_iff.1 hu).1
  cases he with
  | skipComment hp hn =>
    rw [hp] at hstands
    obtain ⟨i, j, hcov, hstart, hj, hk⟩ := hstands
    rw [tokens_advance_phase]
    refine ⟨i, j, hcov, hstart, Nat.lt_succ_of_lt hj, ?_⟩
    intro k hjk hkp
    rcases Nat.lt_succ_iff_lt_or_eq.1 hkp with hkp | rfl
    · exact hk k hjk hkp
    · simpa [Dialect.newlineAt, hu] using hn
  | endComment hp hn =>
    rw [hp] at hstands
    obtain ⟨i, j, hcov, hstart, hj, hk⟩ := hstands
    rw [tokens_advance_phase]
    refine .comment (p := i) hcov ⟨j, hstart, Nat.lt_succ_of_lt hj, hlt, ?_, .inr ⟨?_, ?_⟩⟩
    · intro k hjk hkp
      exact hk k hjk (Nat.lt_of_succ_lt_succ hkp)
    · exact Nat.succ_lt_succ hj
    · exact any_of_plays hu hn
  | startComment hp hc =>
    rw [hp] at hstands
    rw [tokens_advance_phase]
    exact stands_comment hstands hu hc
  | skipBlank hp hc hb =>
    rw [hp] at hstands
    rw [tokens_advance_phase]
    exact .blank hstands hu hb
  | delimiter hp hc hb hd =>
    rw [hp] at hstands
    rw [tokens_emit, tokens_advance]
    exact h.covered_unit hu hstands
  | startRun hp hc hb hd =>
    rw [hp] at hstands
    rw [tokens_advance_phase]
    refine ⟨p, hstands, Nat.lt_succ_self p, ?_, h.line, h.col⟩
    rw [extract_unit hu]
    rfl
  | header r hp hh =>
    rw [hp] at hstands
    obtain ⟨b, hcov, hover⟩ := hstands
    simp only [opensHeader, Bool.and_eq_true, List.isEmpty_iff] at hh
    obtain ⟨⟨⟨-, htail⟩, hsharp⟩, hheader⟩ := hh
    -- The run holds the sharp only, so the sharp is right in front of the unit.
    have hone : us.extract b p = [r.head] := by
      rw [← hover.units, Run.units, htail]
      rfl
    obtain ⟨rfl, hhead⟩ := eq_succ_of_extract hover.lt h.le hone
    rw [tokens_advance_phase]
    refine ⟨b, b + 1, hcov, .inr ⟨rfl, any_of_plays hhead hsharp, any_of_plays hu hheader⟩,
      Nat.lt_succ_self _, by omega⟩
  | commentAfterRun r hp hh hc =>
    have hcov : d.Covered us p ((s.advance d u).emit d r.token).tokens := by
      rw [tokens_emit, tokens_advance]
      exact h.covered_run hp
    exact stands_comment hcov hu hc
  | growRun r hp hh hc hb hd =>
    rw [hp] at hstands
    obtain ⟨b, hcov, hover⟩ := hstands
    rw [tokens_advance_phase]
    exact ⟨b, hcov, hover.push hu⟩
  | glue r hp hh hc hbd hs =>
    rw [hp] at hstands
    obtain ⟨b, hcov, hover⟩ := hstands
    rw [tokens_emit, tokens_advance, (hover.push hu).token_eq]
    exact .token hcov (hover.push hu).lt hlt
  | blankAfterRun r hp hh hc hb hs =>
    rw [tokens_emit, tokens_advance]
    exact .blank (h.covered_run hp) hu hb
  | delimiterAfterRun r hp hh hc hb hd hs =>
    rw [tokens_emit, tokens_emit, tokens_advance]
    exact h.covered_unit hu (h.covered_run hp)

/-- **One unit more is located.** -/
theorem Located.step (h : Located d us p s) (hu : us[p]? = some u) :
    Located d us (p + 1) (s.step d u) := by
  have he := step_effect d s u
  refine ⟨(List.getElem?_eq_some_iff.1 hu).1, ?_, ?_, he.stands h hu⟩
  · rw [he.line_eq, line_advance, h.line, Dialect.lineAt_succ hu]
  · rw [he.col_eq, col_advance, Dialect.charAt_succ hu, ← h.col]
    split <;> rfl

/-- The rest of the text takes the scanner to the end of the text. -/
theorem Located.feed {front vs : List Text} (h : Located d (front ++ vs) front.length s) :
    Located d (front ++ vs) (front ++ vs).length (s.feed d vs) := by
  induction vs generalizing front s with
  | nil => simpa using h
  | cons u vs ih =>
    have hnext := h.step (u := u) (by simp)
    have hwhole : front ++ u :: vs = front ++ [u] ++ vs := by simp
    rw [hwhole] at hnext ⊢
    refine ih ?_
    rw [List.length_append]
    exact hnext

/-- The end of the text ends a run or a comment, and then all is covered. -/
theorem Located.covered_finish (h : Located d us us.length s) :
    d.Covered us us.length (s.finish d).tokens := by
  have hstands := h.stands
  unfold finish
  cases hp : s.phase with
  | between => rw [hp] at hstands; exact hstands
  | run r =>
    rw [tokens_emit]
    exact h.covered_run hp
  | comment =>
    rw [hp] at hstands
    obtain ⟨i, j, hcov, hstart, hj, hk⟩ := hstands
    refine .comment (p := i) hcov ⟨j, hstart, hj, Nat.le_refl _, ?_, .inl rfl⟩
    intro k hjk hkp
    exact hk k hjk (Nat.lt_of_succ_lt hkp)

end Scanner

/-! ## 5. Whole texts -/

/-- The tokens of a text cover it. -/
theorem Dialect.covered_tokenize (d : Dialect) (us : List Text) :
    d.Covered us us.length (d.tokenize us) := by
  have hend : Scanner.Located d us us.length (({} : Scanner).feed d us) :=
    @Scanner.Located.feed d {} [] us (Scanner.located_init us)
  exact hend.covered_finish

/-- Where no unit is empty, no token is. -/
theorem Dialect.Covered.text_ne_nil {d : Dialect} {us : List Text} {p : Nat} {ts : List Token}
    (h : d.Covered us p ts) (hus : ∀ u ∈ us, u ≠ []) : ∀ t ∈ ts, t.text ≠ [] := by
  induction h with
  | start => simp
  | blank _ _ _ ih | comment _ _ ih => exact ih
  | @token p q ts _ hpq hq ih =>
    refine List.forall_mem_append.2 ⟨ih, ?_⟩
    simp only [List.mem_singleton, forall_eq, tokenOn]
    have hp : us[p]? = some us[p] := List.getElem?_eq_getElem (Nat.lt_of_lt_of_le hpq hq)
    intro hempty
    refine hus us[p] (List.mem_of_getElem? hp) (List.flatten_eq_nil_iff.1 hempty _ ?_)
    -- The stretch is not empty, so its first unit is there.
    have hfirst : (us.extract p q)[0]? = some us[p] := by
      rw [List.extract_eq_take_drop, List.getElem?_take_of_lt (by omega), List.getElem?_drop]
      exact hp
    exact List.mem_of_getElem? hfirst

/-- **No unit is lost, taken twice or mislocated.**  In any dialect, and for any units, the tokens
stand on stretches of the text that are not empty, in order, and do not meet.  Each token has the
units of its stretch as text, and the line and the column of the first of them.  A unit in none of
the stretches is a blank, or it belongs to a comment that meets none of them either. -/
theorem tokenize_covers (d : Dialect) (us : List Text) :
    ∃ spans : List Stretch,
      d.tokenize us = spans.map (d.tokenOn us) ∧
      (∀ x ∈ spans, x.start < x.stop ∧ x.stop ≤ us.length) ∧
      (spans.Pairwise fun x y => x.stop ≤ y.start) ∧
      ∀ i u, us[i]? = some u → (∀ x ∈ spans, ¬ x.Holds i) →
        d.isBlank u = true ∨ ∃ c : Stretch, d.IsComment us c ∧ c.Holds i ∧
          ∀ x ∈ spans, x.stop ≤ c.start ∨ c.stop ≤ x.start := by
  obtain ⟨spans, hl⟩ := (d.covered_tokenize us).exists_layout
  refine ⟨spans, hl.tokens, hl.inside, hl.ordered, ?_⟩
  intro i u hu hout
  refine (hl.between i u (List.getElem?_eq_some_iff.1 hu).1 hu hout).imp_right ?_
  rintro ⟨c, hc, hin, -, hd⟩
  exact ⟨c, hc, hin, hd⟩

end SharpForms
