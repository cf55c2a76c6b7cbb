/-
# The scanner's string flag and the reader's strings

Two pieces of the program track strings and know nothing of each other.  The scanner keeps one flag
that every finished token moves; the reader finds strings and regions by looking for the next token
with a given text, across whatever stands between.  They agree on every token list that reads
(`Forest.inQuotes_of_flagged`): outside a region that the quote closes the flag is false between
forms, and inside one it stays true because no token there is the quote.

`inString_iff_inQuotes` puts this together with the scan of a text: at every moment of the scan the
flag says whether the token that comes next is quoted.
-/
import SharpForms.Proofs.Form.Extent
import SharpForms.Proofs.Form.Reading
import SharpForms.Proofs.Token.Invariants

namespace SharpForms

/-! ## 1. The flag along a token list -/

namespace Dialect

variable (d : Dialect)

/-- Each token with the flag in front of it. -/
def flagged (flag : Bool) : List Cell → List (Cell × Bool)
  | [] => []
  | c :: cs => (c, flag) :: flagged (d.inStringAfter flag c.text) cs

theorem flagged_append (flag : Bool) (cs cs' : List Cell) :
    d.flagged flag (cs ++ cs') =
      d.flagged flag cs ++ d.flagged (d.inStringAfterAll flag (cs.map Cell.text)) cs' := by
  induction cs generalizing flag with
  | nil => rfl
  | cons c cs ih => simp [flagged, ih]

variable {d}

/-- Flags go to tokens of the list. -/
theorem mem_of_mem_flagged {flag : Bool} {cs : List Cell} {p : Cell × Bool}
    (hp : p ∈ d.flagged flag cs) : p.1 ∈ cs := by
  induction cs generalizing flag with
  | nil => simp [flagged] at hp
  | cons c cs ih =>
    rcases List.mem_cons.1 hp with rfl | hp
    · exact List.mem_cons_self
    · exact List.mem_cons_of_mem c (ih hp)

/-- Inside a string the flag stays as long as no token is the quote. -/
theorem flagged_true {cs : List Cell} (hcs : ∀ x ∈ cs, d.mark .quote ≠ some x.text) :
    d.inStringAfterAll true (cs.map Cell.text) = true ∧ ∀ p ∈ d.flagged true cs, p.2 = true := by
  induction cs with
  | nil => simp [flagged]
  | cons c cs ih =>
    have hc : d.inStringAfter true c.text = true := by
      simpa [inStringAfter, plays] using hcs c List.mem_cons_self
    obtain ⟨h1, h2⟩ := ih fun x hx => hcs x (List.mem_cons_of_mem c hx)
    simp only [List.map_cons, inStringAfterAll_cons, flagged, hc]
    refine ⟨h1, ?_⟩
    intro p hp
    rcases List.mem_cons.1 hp with rfl | hp
    · rfl
    · exact h2 p hp

end Dialect

/-! ## 2. The flag along a forest -/

/-- Behind the forest the flag is false again, and inside it the flag is true exactly in front of
the tokens that one of its forms quotes. -/
def FlagAgrees (d : Dialect) (cs : List Cell) (ns : List Node) : Prop :=
  d.inStringAfterAll false (cs.map Cell.text) = false ∧
    ∀ p ∈ d.flagged false cs, p.2 = true ↔ InQuotes d ns p.1.index

/-- The tokens are numbered upwards. -/
def Ascending (cs : List Cell) : Prop := cs.Pairwise fun a b => a.index < b.index

section

variable {d : Dialect} {L : Lexicon} {o c : Cell} {cs cs' : List Cell} {ns ns' : List Node}
  {n : Node}

theorem ascending_append :
    Ascending (cs ++ cs') ↔
      Ascending cs ∧ Ascending cs' ∧ ∀ a ∈ cs, ∀ b ∈ cs', a.index < b.index :=
  List.pairwise_append

/-- Between an opening and a closing token the numbers lie between theirs. -/
theorem ascending_between (ha : Ascending (o :: cs ++ [c])) :
    Ascending cs ∧ (∀ x ∈ cs, o.index < x.index ∧ x.index < c.index) ∧ o.index < c.index := by
  obtain ⟨h1, -, h3⟩ := ascending_append.1 ha
  obtain ⟨h4, h5⟩ := List.pairwise_cons.1 h1
  refine ⟨h5, ?_, ?_⟩
  · intro x hx
    exact ⟨h4 x hx, h3 x (List.mem_cons_of_mem o hx) c (by simp)⟩
  · exact h3 o List.mem_cons_self c (by simp)

/-- The numbers of a token list go upwards. -/
theorem ascending_number (i : Nat) (ts : List Token) :
    Ascending (Cell.number i ts) ∧ ∀ x ∈ Cell.number i ts, i ≤ x.index := by
  induction ts generalizing i with
  | nil => simp [Ascending]
  | cons t ts ih =>
    obtain ⟨h1, h2⟩ := ih (i + 1)
    refine ⟨List.pairwise_cons.2 ⟨h2, h1⟩, ?_⟩
    intro x hx
    rcases List.mem_cons.1 hx with rfl | hx
    · exact Nat.le_refl i
    · exact Nat.le_of_succ_le (h2 x hx)

/-- Side by side, each forest keeps its own tokens. -/
theorem FlagAgrees.append (hf : Forest L cs ns) (hf' : Forest L cs' ns')
    (ha : Ascending (cs ++ cs')) (h : FlagAgrees d cs ns) (h' : FlagAgrees d cs' ns') :
    FlagAgrees d (cs ++ cs') (ns ++ ns') := by
  obtain ⟨-, -, hlt⟩ := ascending_append.1 ha
  refine ⟨by simp [h.1, h'.1], ?_⟩
  intro p hp
  rw [d.flagged_append, h.1] at hp
  rw [inQuotes_append]
  rcases List.mem_append.1 hp with hp | hp
  · have hout : ¬ InQuotes d ns' p.1.index := by
      refine hf'.not_inQuotes_of_le ?_
      intro x hx
      exact Nat.le_of_lt (hlt p.1 (Dialect.mem_of_mem_flagged hp) x hx)
    rw [h.2 p hp, or_iff_left hout]
  · have hout : ¬ InQuotes d ns p.1.index := by
      refine hf.not_inQuotes_of_lt ?_
      intro x hx
      exact hlt x hx p.1 (Dialect.mem_of_mem_flagged hp)
    rw [h'.2 p hp, or_iff_right hout]

/-- **Outside mode.**  A form that does not quote, between two tokens that do not move the flag,
leaves all its tokens to its items. -/
theorem FlagAgrees.wrap (hf : Forest L cs ns) (ha : Ascending (o :: cs ++ [c]))
    (h : FlagAgrees d cs ns) (ho : d.entersString o.text = false)
    (hc : d.entersString c.text = false) (hn : n.postorder = Node.postorderAll ns ++ [n])
    (hq : ¬ n.Quotes d) : FlagAgrees d (o :: cs ++ [c]) [n] := by
  obtain ⟨-, hbetween, hoc⟩ := ascending_between ha
  have ho' : d.inStringAfter false o.text = false := ho
  have hc' : d.inStringAfter false c.text = false := hc
  refine ⟨by simp [ho', h.1, hc'], ?_⟩
  intro p hp
  rw [inQuotes_singleton hn, or_iff_left fun hs => hq hs.1]
  simp only [d.flagged_append, Dialect.flagged, List.cons_append, List.mem_cons, List.mem_append,
    List.not_mem_nil, or_false, ho', h.1] at hp
  rcases hp with rfl | hp | rfl
  · simpa using hf.not_inQuotes_of_le fun x hx => Nat.le_of_lt (hbetween x hx).1
  · exact h.2 p hp
  · simpa using hf.not_inQuotes_of_lt fun x hx => (hbetween x hx).2

/-- **Inside mode.**  A form that quotes, from a token that enters a string to the quote, with no
quote between, has all tokens behind its first one quoted. -/
theorem FlagAgrees.quote (hf : Forest L cs' ns) (hcs' : ∀ x ∈ cs', o.index ≤ x.index)
    (ha : Ascending (o :: cs ++ [c])) (ho : d.entersString o.text = true)
    (hcs : ∀ x ∈ cs, d.mark .quote ≠ some x.text) (hc : d.mark .quote = some c.text)
    (hn : n.postorder = Node.postorderAll ns ++ [n]) (hq : n.Quotes d)
    (hb : n.bounds = o.boundsTo c) : FlagAgrees d (o :: cs ++ [c]) [n] := by
  obtain ⟨-, hbetween, hoc⟩ := ascending_between ha
  obtain ⟨hall, hflag⟩ := Dialect.flagged_true hcs
  have ho' : d.inStringAfter false o.text = true := ho
  have hc' : d.inStringAfter true c.text = false := by simp [Dialect.inStringAfter, hc]
  refine ⟨by simp [ho', hall, hc'], ?_⟩
  intro p hp
  rw [inQuotes_singleton hn, hb, Cell.spans_boundsTo, and_iff_right hq]
  simp only [d.flagged_append, Dialect.flagged, List.cons_append, List.mem_cons, List.mem_append,
    List.not_mem_nil, or_false, ho', hall] at hp
  rcases hp with rfl | hp | rfl
  · have := hf.not_inQuotes_of_le (d := d) hcs'
    simp [this]
  · have := hbetween p.1 (Dialect.mem_of_mem_flagged hp)
    simp only [hflag p hp, true_iff]
    exact .inr ⟨this.1, Nat.le_of_lt this.2⟩
  · simp [hoc]

/-- A form of one token that does not move the flag quotes nothing. -/
theorem FlagAgrees.single (hc : d.entersString c.text = false) (hn : n.postorder = [n])
    (hq : ¬ n.Quotes d) : FlagAgrees d [c] [n] := by
  refine ⟨by simpa [Dialect.inStringAfter] using hc, ?_⟩
  intro p hp
  obtain rfl : p = (c, false) := List.mem_singleton.1 hp
  simp [InQuotes, hn, hq]

/-- **The flag agrees with every forest of a regular dialect.** -/
theorem Forest.flagAgrees (h : d.Regular) (hf : Forest d.byMarks cs ns) (ha : Ascending cs) :
    FlagAgrees d cs ns := by
  -- A mark other than the sharp and the quote does not move the flag.
  have still : ∀ {r : Role} {t : Text}, r.isNotation = true → r ≠ .sharp → r ≠ .quote →
      d.mark r = some t → d.entersString t = false := by
    intro r t hr hs hq ht
    refine h.entersString_eq_false (h.mark_ne hr rfl hq ht) ?_
    intro hs'
    exact absurd hs' (h.not_startsSharp hr hs ht)
  induction hf with
  | empty => exact ⟨rfl, by simp [Dialect.flagged]⟩
  | append hf hf' ih ih' =>
    obtain ⟨ha1, ha2, -⟩ := ascending_append.1 ha
    exact .append hf hf' ha (ih ha1) (ih' ha2)
  | literal hl =>
    obtain ⟨-, -, hq, hs⟩ := hl
    refine .single (h.entersString_eq_false hq ?_) rfl (by simp [Node.Quotes])
    intro hs'
    exact absurd hs' hs
  | group ho hf hc ih =>
    exact .wrap hf ha (ih (ascending_between ha).1) (still rfl (by simp) (by simp) ho)
      (still rfl (by simp) (by simp) hc) rfl (by simp [Node.Quotes])
  | string ho hcs hc =>
    have none : Forest d.byMarks [] [] := .empty
    exact .quote none (by simp) ha (h.entersString_iff.2 (.inl ho)) hcs hc rfl trivial rfl
  | tag ht =>
    obtain ⟨hs, last, hl, -, hq⟩ := ht
    exact .single (h.entersString_of_startsSharp hs hl hq) rfl (by simp [Node.Quotes, hl, hq])
  | region hr hcs hf ih =>
    obtain ⟨hs, last, hl, ⟨hq, hc⟩ | ⟨b, ho, hc⟩⟩ := hr
    · refine .quote hf ?_ ha (h.entersString_iff.2 (.inr ⟨hs, last, hl, hq⟩)) ?_ hc rfl
        ⟨last, hl, hq⟩ rfl
      · intro x hx
        exact Nat.le_of_lt ((ascending_between ha).2.1 x hx).1
      · intro x hx hx'
        exact hcs x hx (Option.some.inj (hx'.symm.trans hc))
    · have hq : d.mark .quote ≠ some [last] := h.mark_ne rfl rfl (by simp) ho
      exact .wrap hf ha (ih (ascending_between ha).1) (h.entersString_of_startsSharp hs hl hq)
        (still rfl (by simp) (by simp) hc) rfl (by simp [Node.Quotes, hl, hq])

end

/-! ## 3. The flag along what is read -/

/-- The numbers of a token list are those of its places. -/
theorem Cell.index_of_mem_number {i : Nat} {ts : List Token} {x : Cell} (hx : x ∈ number i ts) :
    i ≤ x.index ∧ x.index < i + ts.length := by
  obtain ⟨j, hj, ht⟩ := getElem?_of_mem_number hx
  have := (List.getElem?_eq_some_iff.1 ht).1
  omega

/-- The flag in front of a token of the list is the one that the list gives it. -/
theorem Dialect.mem_flagged (d : Dialect) {ts : List Token} {i : Nat} (hi : i < ts.length) :
    (⟨i, ts[i]⟩, d.flagBefore ts i) ∈ d.flagged false (Cell.number 0 ts) := by
  have hsplit : Cell.number 0 ts =
      Cell.number 0 (ts.take i) ++ ⟨i, ts[i]⟩ :: Cell.number (i + 1) (ts.drop (i + 1)) := by
    calc Cell.number 0 ts = Cell.number 0 (ts.take i ++ ts[i] :: ts.drop (i + 1)) := by
          rw [← List.drop_eq_getElem_cons hi, List.take_append_drop]
      _ = _ := by
          rw [Cell.number_append, Cell.number_cons, List.length_take, Nat.zero_add,
            Nat.min_eq_left (Nat.le_of_lt hi)]
  rw [hsplit, d.flagged_append, Cell.map_text_number]
  exact List.mem_append_right _ List.mem_cons_self

/-- Behind the last token nothing is quoted. -/
theorem Dialect.not_inQuotes_of_length_le {d : Dialect} {ts : List Token} {ns : List Node}
    (hr : (d.read ts).result = .ok ns) {i : Nat} (hi : ts.length ≤ i) : ¬ InQuotes d ns i := by
  refine (Dialect.read_eq_ok_iff.1 hr).not_inQuotes_of_lt ?_
  intro x hx
  have := Cell.index_of_mem_number hx
  omega

/-- **In what is read, the flag in front of a token says whether the token is quoted.** -/
theorem Dialect.flagBefore_iff_inQuotes {d : Dialect} (h : d.Regular) {ts : List Token}
    {ns : List Node} (hr : (d.read ts).result = .ok ns) (i : Nat) :
    d.flagBefore ts i = true ↔ InQuotes d ns i := by
  have hf := Dialect.read_eq_ok_iff.1 hr
  rw [← Dialect.byMarks_eq_byKind h] at hf
  obtain ⟨hend, hflag⟩ := hf.flagAgrees h (ascending_number 0 ts).1
  by_cases hi : i < ts.length
  · exact hflag _ (d.mem_flagged hi)
  · have hout := not_inQuotes_of_length_le hr (Nat.le_of_not_lt hi)
    rw [Cell.map_text_number] at hend
    rw [flagBefore, List.take_of_length_le (Nat.le_of_not_lt hi), hend]
    simpa using hout

/-! ## 4. The flag during the scan of a text -/

/-- The scanner behind the characters of a text. -/
def Dialect.scanned (d : Dialect) (t : Text) : Scanner := ({} : Scanner).feed d (Text.units t)

section

variable {d : Dialect} {t t₁ t₂ : Text} {c : Char}

theorem Dialect.tokenize_eq (d : Dialect) (t : Text) :
    d.tokenize (Text.units t) = ((d.scanned t).finish d).tokens := rfl

theorem Dialect.scanned_append (d : Dialect) (t₁ t₂ : Text) :
    d.scanned (t₁ ++ t₂) = (d.scanned t₁).feed d (Text.units t₂) := by
  rw [scanned, Text.units_append, Scanner.feed_append]
  rfl

/-- One more character is one more step. -/
theorem Dialect.scanned_concat (d : Dialect) (t : Text) (c : Char) :
    d.scanned (t ++ [c]) = (d.scanned t).step d [c] := d.scanned_append t [c]

/-- The tokens found behind a part of a text begin the tokens of the text. -/
theorem Dialect.tokens_scanned_prefix (d : Dialect) (t₁ t₂ : Text) :
    (d.scanned t₁).tokens <+: d.tokenize (Text.units (t₁ ++ t₂)) := by
  rw [d.tokenize_eq, d.scanned_append]
  exact (Scanner.tokens_prefix_feed _ _).trans (Scanner.tokens_prefix_finish _)

theorem Dialect.tidy_scanned (h : d.Regular) (t : Text) : (d.scanned t).Tidy d :=
  Scanner.tidy_init.feed h t

theorem Dialect.flagFits_scanned (d : Dialect) (t : Text) : (d.scanned t).FlagFits d :=
  Scanner.flagFits_feed _

/-- The flag of a scanner on its way to the tokens of a text that reads. -/
theorem Scanner.FlagFits.iff_inQuotes (h : d.Regular) {ts : List Token} {ns : List Node}
    (hr : (d.read ts).result = .ok ns) {s : Scanner} (hs : s.FlagFits d) (hts : s.tokens <+: ts) :
    s.inString = true ↔ InQuotes d ns s.tokens.length := by
  rw [hs.eq_flagBefore hts]
  exact Dialect.flagBefore_iff_inQuotes h hr _

/-- A text that reads leaves the scanner outside strings. -/
theorem Dialect.inString_finish_eq_false (h : d.Regular) {ns : List Node}
    (hr : (d.read (d.tokenize (Text.units t))).result = .ok ns) :
    ((d.scanned t).finish d).inString = false := by
  rw [Bool.eq_false_iff, Ne,
    (d.flagFits_scanned t).finish.iff_inQuotes h hr (List.prefix_refl _)]
  exact Dialect.not_inQuotes_of_length_le hr (Nat.le_refl _)

/-- **The scanner and the reader agree on what is inside a string.**  Take a text whose tokens read
in a regular dialect.

* The flag in front of a token is true exactly if a form quotes the token; that flag is the one the
  scanner has at each point of the text for the token that comes next, also right after a run that
  has just been finished.
* When the whole text has been scanned the flag is false.
* A character at which a comment or a header line starts stands in front of a token that no form
  quotes.
* A comment mark in front of a token that is quoted is kept: it goes into a run, and that run
  begins the token. -/
theorem inString_iff_inQuotes (h : d.Regular) {ns : List Node}
    (hr : (d.read (d.tokenize (Text.units t))).result = .ok ns) :
    (∀ i, d.flagBefore (d.tokenize (Text.units t)) i = true ↔ InQuotes d ns i) ∧
    (∀ t₁ t₂, t = t₁ ++ t₂ →
      ((d.scanned t₁).inString = true ↔ InQuotes d ns (d.scanned t₁).tokens.length) ∧
      ∀ r : Run, ((d.scanned t₁).emit d r.token).tokens <+: d.tokenize (Text.units t) →
        (((d.scanned t₁).emit d r.token).inString = true ↔
          InQuotes d ns ((d.scanned t₁).tokens.length + 1))) ∧
    ((d.scanned t).finish d).inString = false ∧
    (∀ t₁ c t₂, t = t₁ ++ c :: t₂ →
      (d.scanned t₁).phase ≠ .comment → (d.scanned (t₁ ++ [c])).phase = .comment →
      ¬ InQuotes d ns (d.scanned (t₁ ++ [c])).tokens.length) ∧
    ∀ t₁ c t₂, t = t₁ ++ c :: t₂ → d.mark .comment = some [c] →
      InQuotes d ns (d.scanned t₁).tokens.length →
      ∃ r tok, (d.scanned (t₁ ++ [c])).phase = .run r ∧ r.units.getLast? = some [c] ∧
        (d.tokenize (Text.units t))[(d.scanned t₁).tokens.length]? = some tok ∧
        r.text <+: tok.text := by
  have hscan : ∀ t₁ t₂, t = t₁ ++ t₂ →
      ((d.scanned t₁).inString = true ↔ InQuotes d ns (d.scanned t₁).tokens.length) := by
    rintro t₁ t₂ rfl
    exact (d.flagFits_scanned t₁).iff_inQuotes h hr (d.tokens_scanned_prefix t₁ t₂)
  refine ⟨Dialect.flagBefore_iff_inQuotes h hr, ?_, Dialect.inString_finish_eq_false h hr, ?_, ?_⟩
  · intro t₁ t₂ ht
    refine ⟨hscan t₁ t₂ ht, ?_⟩
    intro r hts
    have := ((d.flagFits_scanned t₁).emit r.token).iff_inQuotes h hr hts
    simpa using this
  · intro t₁ c t₂ ht hp hc
    rw [← hscan (t₁ ++ [c]) t₂ (by simp [ht]), (d.tidy_scanned h _).comment hc]
    simp
  · intro t₁ c t₂ ht hm hin
    have hs := (hscan t₁ (c :: t₂) ht).2 hin
    have hp : (d.scanned t₁).phase ≠ .comment := by
      intro hp
      rw [(d.tidy_scanned h t₁).comment hp] at hs
      cases hs
    obtain ⟨r, hrun, hlast, hs', htok⟩ := Scanner.exists_run_of_inString hs hp
      (h.not_blank .comment [c] rfl hm)
      (h.isDelimiter_eq_false rfl (by simp) (by simp) (by simp) hm)
    obtain ⟨tok, hget, hpre⟩ := Scanner.exists_token_of_run hrun hs' (Text.units t₂)
    rw [htok, ← d.scanned_concat, ← d.scanned_append, ← d.tokenize_eq, List.append_assoc,
      List.singleton_append, ← ht] at hget
    rw [d.scanned_concat]
    exact ⟨r, tok, hrun, hlast, hget, hpre⟩

/-- A string with a comment mark in it, and a comment behind it: the mark is quoted, and nothing
is quoted where the comment starts. -/
theorem inQuotes_comment_mark :
    ∃ ns, (Table.lines.dialect.read (Table.lines.dialect.tokenize
        (Text.units ['"', 'a', ';', 'b', '"', ';', 'c']))).result = .ok ns ∧
      InQuotes Table.lines.dialect ns 1 ∧ ¬ InQuotes Table.lines.dialect ns 3 := by
  have htok : Table.lines.dialect.tokenize (Text.units ['"', 'a', ';', 'b', '"', ';', 'c']) =
      [⟨['"'], some 1, some 1⟩, ⟨['a', ';', 'b'], some 1, some 2⟩, ⟨['"'], some 1, some 5⟩] := by
    decide
  have hq : Table.lines.dialect.kind ['"'] = .quote := by decide
  have hin : ∀ x ∈ [(⟨1, ⟨['a', ';', 'b'], some 1, some 2⟩⟩ : Cell)],
      Table.lines.dialect.kind x.text ≠ .quote := by decide
  have hf : Forest Table.lines.dialect.byKind _ _ :=
    @Forest.string _ ⟨0, ⟨['"'], some 1, some 1⟩⟩ ⟨2, ⟨['"'], some 1, some 5⟩⟩ _ hq hin hq
  have hr : (Table.lines.dialect.read (Table.lines.dialect.tokenize
      (Text.units ['"', 'a', ';', 'b', '"', ';', 'c']))).result =
      .ok [.string ['a', ';', 'b'] ⟨some 0, some 2, some 1, some 1⟩] := by
    rw [htok]
    exact Dialect.read_eq_ok_iff.2 hf
  have hquote := (inString_iff_inQuotes Dialect.lines_regular hr).1
  refine ⟨_, hr, (hquote 1).1 ?_, ?_⟩
  · rw [htok]
    decide
  · intro h3
    have := (hquote 3).2 h3
    rw [htok] at this
    revert this
    decide

end

end SharpForms
