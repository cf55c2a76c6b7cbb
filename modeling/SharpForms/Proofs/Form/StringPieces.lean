/-
# Which strings survive printing

A string is printed as it is, between two quotes, and read again it is cut up by what its characters
are.  It comes back exactly if it is a row of PIECES: delimiters other than the quote; runs that do
not begin with the sharp, each in front of a delimiter or at the end; and tags, that is runs that
begin with the sharp, each with the one blank or delimiter that stops it.

* `StringPieces.lex_flatten`: in front of the closing quote, pieces are cut off one by one.
* `stringPieces_of_lex`: what is cut off without a loss and without a quote is such a row.
* `string_reads_back_iff`: so the strings that survive are those that can be cut into pieces.

A blank or a quote survives only as the end of a tag (`StringPieces.endsInTag_front`), and a string
that ends in the middle of a tag does not survive, since the tag takes in the closing quote
(`StringPieces.not_endsInTag`).
-/
import SharpForms.Proofs.Form.Commented

namespace SharpForms

/-! ## 1. Pieces -/

namespace Dialect

/-- The character ends a run: it is blank or a delimiter. -/
def Breaks (d : Dialect) (c : Char) : Prop := d.isBlank [c] = true ∨ d.isDelimiter [c] = true

instance (d : Dialect) (c : Char) : Decidable (d.Breaks c) :=
  inferInstanceAs (Decidable (_ ∨ _))

/-- The text ends in the middle of a tag: in a sharp, at its beginning or behind what ends a run,
and what has come behind the sharp so far. -/
def EndsInTag (d : Dialect) (t : Text) : Prop :=
  ∃ front c body, t = front ++ c :: body ∧ d.mark .sharp = some [c] ∧ (∀ x ∈ body, ¬ d.Breaks x) ∧
    ∀ e ∈ front.getLast?, d.Breaks e

/-- The forms can be printed, and the printed text reads as the same forms. -/
def ReadsBack (d : Dialect) (ns : List Node) : Prop :=
  ∃ t ms, Node.dump ns = .ok t ∧ (d.read (d.tokenize (Text.units t))).result = .ok ms ∧
    Node.sameAll ms ns = true

end Dialect

/-- The pieces that a string between quotes is cut into. -/
inductive StringPieces (d : Dialect) : List Text → Prop
  | nil : StringPieces d []
  | delimiter {c : Char} {ps : List Text} :
      d.isDelimiter [c] = true → d.mark .quote ≠ some [c] → StringPieces d ps →
        StringPieces d ([c] :: ps)
  | run {c : Char} {body : Text} {ps : List Text} :
      (∀ x ∈ c :: body, ¬ d.Breaks x) → d.mark .sharp ≠ some [c] →
        (∀ p ∈ ps.head?, d.isDelimiter p = true) → StringPieces d ps →
        StringPieces d ((c :: body) :: ps)
  | tag {c e : Char} {body : Text} {ps : List Text} :
      d.mark .sharp = some [c] → (∀ x ∈ body, ¬ d.Breaks x) → d.Breaks e → StringPieces d ps →
        StringPieces d ((c :: body ++ [e]) :: ps)

section

variable {d : Dialect} {c e q : Char} {t u v body : Text} {ps : List Text}

/-- Inside a string a run goes on over all that does not end it. -/
theorem Dialect.inRun_true_iff : d.inRun true c = true ↔ ¬ d.Breaks c := by
  simp [Breaks, inRun]

theorem Dialect.inRun_true_eq_false_iff : d.inRun true c = false ↔ d.Breaks c := by
  rw [← Bool.not_eq_true, inRun_true_iff, Classical.not_not]

theorem Dialect.not_breaks_sharp (h : d.Regular) (hc : d.mark .sharp = some [c]) :
    ¬ d.Breaks c := by
  rintro (hb | hb)
  · rw [h.not_blank .sharp [c] rfl hc] at hb
    cases hb
  · rw [h.isDelimiter_eq_false rfl (by simp) (by simp) (by simp) hc] at hb
    cases hb

/-- The sharp and what has come behind it goes on as a run. -/
theorem Dialect.not_breaks_of_mem_tag (h : d.Regular) (hc : d.mark .sharp = some [c])
    (hbody : ∀ x ∈ body, ¬ d.Breaks x) : ∀ x ∈ c :: body, ¬ d.Breaks x :=
  List.forall_mem_cons.2 ⟨not_breaks_sharp h hc, hbody⟩

/-- Without anything that ends a run a text is no quote. -/
theorem Dialect.ne_quote_of_not_breaks (h : d.Regular) (ht : ∀ x ∈ t, ¬ d.Breaks x) :
    d.mark .quote ≠ some t :=
  (h.ne_quote_of_not_delimiter fun x hx => Bool.eq_false_iff.2 fun hd => ht x hx (.inr hd)).1

/-! ## 2. Pieces are cut off -/

/-- A tag with what ends it is a lexeme inside a string, and is not the quote. -/
theorem Dialect.lexeme_tag (h : d.Regular) (hc : d.mark .sharp = some [c])
    (hbody : ∀ x ∈ body, ¬ d.Breaks x) (he : d.Breaks e) :
    d.Lexeme true (c :: body ++ [e]) ∧ d.mark .quote ≠ some (c :: body ++ [e]) := by
  refine ⟨.glued ?_ rfl ((d.plays_iff .sharp [c]).2 hc) he, ?_⟩
  · intro x hx
    exact inRun_true_iff.2 (not_breaks_of_mem_tag h hc hbody x hx)
  · intro hq
    exact h.not_startsSharp rfl (by simp) hq hc

/-- No piece is the quote. -/
theorem StringPieces.ne_quote (h : d.Regular) (hp : StringPieces d ps) :
    ∀ p ∈ ps, d.mark .quote ≠ some p := by
  induction hp with
  | nil => simp
  | delimiter _ hq _ ih => exact List.forall_mem_cons.2 ⟨hq, ih⟩
  | run hrun _ _ _ ih =>
    exact List.forall_mem_cons.2 ⟨Dialect.ne_quote_of_not_breaks h hrun, ih⟩
  | tag hc hbody he _ ih => exact List.forall_mem_cons.2 ⟨(Dialect.lexeme_tag h hc hbody he).2, ih⟩

/-- **In front of the closing quote pieces are cut off one by one.** -/
theorem StringPieces.lex_flatten (h : d.Regular) (hq : d.mark .quote = some [q])
    (hp : StringPieces d ps) (rest : Text) :
    d.lex true (ps.flatten ++ q :: rest) = ps ++ [q] :: d.lex false rest := by
  induction hp with
  | nil => exact Dialect.lex_quote h hq
  | @delimiter c ps hd hne _ ih =>
    have hplays : d.plays .quote [c] = false := (d.plays_eq_false_iff .quote [c]).2 hne
    rw [List.flatten_cons, List.append_assoc, List.singleton_append, Dialect.lex_delimiter h hd,
      hplays, Bool.xor_false, ih, List.cons_append]
  | @run c body ps hrun hs hhead _ ih =>
    have hin : ∀ x ∈ c :: body, d.inRun true x = true :=
      fun x hx => Dialect.inRun_true_iff.2 (hrun x hx)
    have hsharp : d.plays .sharp [c] = false := (d.plays_eq_false_iff .sharp [c]).2 hs
    have hstop : d.Stops true (ps.flatten ++ q :: rest) := by
      cases ps with
      | nil =>
        exact Dialect.stops_cons.2 (Dialect.not_inRun (.inr (Dialect.isDelimiter_of_quote hq)))
      | cons p ps =>
        have hp := hhead p rfl
        obtain ⟨e, rfl⟩ := h.single_of_delimiter hp
        exact Dialect.stops_cons.2 (Dialect.not_inRun (.inr hp))
    rw [List.flatten_cons, List.append_assoc, (Dialect.lex_run_append h hin hsharp).2 _ hstop, ih,
      List.cons_append]
  | @tag c e body ps hc hbody he _ ih =>
    obtain ⟨hlex, hne⟩ := Dialect.lexeme_tag h hc hbody he
    have hflag : d.inStringAfter true (c :: body ++ [e]) = true := by
      simpa [Dialect.inStringAfter, Dialect.plays] using hne
    rw [List.flatten_cons, List.append_assoc,
      Dialect.lex_append_of_tag h hlex hc (Dialect.not_bare_concat he), hflag, ih]
    rfl

/-! ## 3. What is cut off are pieces -/

/-- A text is what can go on a run and then what stops it. -/
theorem Dialect.exists_run_append (d : Dialect) (flag : Bool) (t : Text) :
    ∃ more behind, t = more ++ behind ∧ (∀ x ∈ more, d.inRun flag x = true) ∧
      d.Stops flag behind := by
  refine ⟨t.takeWhile (d.inRun flag), t.dropWhile (d.inRun flag),
    List.takeWhile_append_dropWhile.symm, ?_, ?_⟩
  · exact List.all_eq_true.1 List.all_takeWhile
  · intro e he
    have := List.head?_dropWhile_not (d.inRun flag) t
    rw [he] at this
    exact this

/-- A run that is the first token inside a string goes on no further, and if it begins with the
sharp nothing is behind it. -/
theorem Dialect.behind_run_of_lex {rest : Text} {us : List Text}
    (hrun : ∀ x ∈ c :: body, d.inRun true x = true)
    (hlex : d.lex true (c :: body ++ rest) = (c :: body) :: us) :
    d.Stops true rest ∧ (rest = [] ∨ d.mark .sharp ≠ some [c]) ∧ d.lex true rest = us := by
  obtain ⟨more, behind, rfl, hmore, hstop⟩ := d.exists_run_append true rest
  have hall : ∀ x ∈ c :: (body ++ more), d.inRun true x = true := by
    rw [← List.cons_append]
    exact List.forall_mem_append.2 ⟨hrun, hmore⟩
  rw [← List.append_assoc, List.cons_append] at hlex
  -- The first token takes in all that can go on it, so there is nothing of that kind.
  cases behind with
  | nil =>
    rw [lex_run hall rfl hstop, List.cons.injEq, ← List.cons_append, List.append_right_eq_self]
      at hlex
    obtain ⟨rfl, rfl⟩ := hlex
    exact ⟨stops_nil, .inl rfl, lex_nil⟩
  | cons e behind =>
    have he : d.isBlank [e] = true ∨ d.isDelimiter [e] = true :=
      inRun_true_eq_false_iff.1 (stops_cons.1 hstop)
    rw [lex_run hall rfl hstop] at hlex
    dsimp only at hlex
    split at hlex
    · rw [List.cons.injEq, ← List.cons_append, List.append_assoc, List.append_right_eq_self] at hlex
      simp at hlex
    · rename_i hglue
      rw [List.cons.injEq, ← List.cons_append, List.append_right_eq_self] at hlex
      obtain ⟨rfl, rfl⟩ := hlex
      refine ⟨hstop, .inr ?_, rfl⟩
      simpa [he, plays] using hglue

/-- The first character of pieces ends a run only if the first piece is a delimiter. -/
theorem StringPieces.delimiter_of_stops (h : d.Regular) (hp : StringPieces d ps)
    (hstop : d.Stops true (ps.flatten ++ [q])) :
    ∀ p ∈ ps.head?, d.isDelimiter p = true := by
  cases hp with
  | nil => simp
  | delimiter hd => simpa using hd
  | run hrun =>
    exact absurd (Dialect.inRun_true_eq_false_iff.1 (Dialect.stops_cons.1 hstop))
      (hrun _ List.mem_cons_self)
  | tag hc =>
    exact absurd (Dialect.inRun_true_eq_false_iff.1 (Dialect.stops_cons.1 hstop))
      (Dialect.not_breaks_sharp h hc)

/-- **What is cut off without a loss and without a quote are pieces.** -/
theorem stringPieces_of_lex (h : d.Regular)
    (hps : ∀ p ∈ ps, d.mark .quote ≠ some p)
    (hlex : d.lex true (ps.flatten ++ [q]) = ps ++ [[q]]) : StringPieces d ps := by
  induction ps with
  | nil => exact .nil
  | cons p ps ih =>
    rw [List.forall_mem_cons] at hps
    have hlexed := Dialect.lexed_lex h true ((p :: ps).flatten ++ [q])
    rw [hlex] at hlexed
    rw [List.flatten_cons, List.append_assoc, List.cons_append] at hlex
    cases hlexed with
    | cons hp _ =>
    cases hp with
    | @delimiter c hd =>
      have hplays : d.plays .quote [c] = false := (d.plays_eq_false_iff .quote [c]).2 hps.1
      rw [List.singleton_append, Dialect.lex_delimiter h hd, hplays, Bool.xor_false] at hlex
      exact .delimiter hd hps.1 (ih hps.2 (List.cons.inj hlex).2)
    | @run c body hrun =>
      obtain ⟨hstop, hsharp, hrest⟩ := Dialect.behind_run_of_lex hrun hlex
      have hpieces := ih hps.2 hrest
      exact .run (fun x hx => Dialect.inRun_true_iff.1 (hrun x hx))
        (hsharp.resolve_left (by simp)) (hpieces.delimiter_of_stops h hstop) hpieces
    | @glued c e body hrun hheader hs he =>
      have hsharp := (d.plays_iff .sharp [c]).1 hs
      have hflag : d.inStringAfter true (c :: body ++ [e]) = true := by
        simpa [Dialect.inStringAfter, Dialect.plays] using hps.1
      rw [Dialect.lex_append_of_tag h (.glued hrun hheader hs he) hsharp
        (Dialect.not_bare_concat he), hflag] at hlex
      exact .tag hsharp
        (fun x hx => Dialect.inRun_true_iff.1 (hrun x (List.mem_cons_of_mem c hx))) he
        (ih hps.2 (List.cons.inj hlex).2)

/-! ## 4. Reading a string back -/

/-- Only a string is a string but for its place. -/
theorem Node.eq_string_of_unplacedAll {ns : List Node} {s : Text}
    (h : Node.unplacedAll ns = [.string s {}]) : ∃ at_, ns = [.string s at_] := by
  rw [unplacedAll_eq_map, List.map_eq_singleton_iff] at h
  obtain ⟨n, rfl, hn⟩ := h
  cases n with
  | string t at_ =>
    cases hn
    exact ⟨at_, rfl⟩
  | leaf | group | dispatch | call | plain | placeholder => cases hn

theorem Node.printAll_string (s : Text) (at_ : Bounds) :
    printAll [.string s at_] = '"' :: (s ++ ['"']) := by
  simp [printAll, print]

/-- The tokens of a string are two quotes and tokens other than the quote, joined in it. -/
theorem Form.texts_of_string (hd : d.Printed) {cs : List Cell} {s : Text} {at_ : Bounds}
    (hf : Form d.byMarks cs (.string s at_)) :
    ∃ ts, ts.flatten = s ∧ (∀ t ∈ ts, d.mark .quote ≠ some t) ∧
      cs.map Cell.text = ['"'] :: ts ++ [['"']] := by
  cases hf with
  | @string o c mid ho hmid hc =>
  have hopen : ['"'] = o.text := Option.some.inj (hd.quote.symm.trans ho)
  have hclose : ['"'] = c.text := Option.some.inj (hd.quote.symm.trans hc)
  refine ⟨mid.map Cell.text, rfl, List.forall_mem_map.2 hmid, ?_⟩
  rw [Cell.map_text_between, ← hopen, ← hclose]

/-- The tokens of a printed string are a quote and what the rest is cut into inside a string. -/
theorem Dialect.map_text_tokenize_string (hd : d.Printed) (s : Text) (at_ : Bounds) :
    (Cell.number 0 (d.tokenize (Text.units (Node.printAll [.string s at_])))).map Cell.text =
      ['"'] :: d.lex true (s ++ ['"']) := by
  rw [Node.printAll_string, map_text_tokenize hd.regular, lex_quote hd.regular hd.quote,
    Bool.not_false]

/-- **A string reads back exactly if it can be cut into pieces.** -/
theorem Dialect.readsBack_string_iff (hd : d.Printed) (s : Text) (at_ : Bounds) :
    d.ReadsBack [.string s at_] ↔ ∃ ps, ps.flatten = s ∧ StringPieces d ps := by
  have h := hd.regular
  have hdump : Node.dump [.string s at_] = .ok (Node.printAll [.string s at_]) :=
    Node.dump_eq_ok rfl
  have htexts := map_text_tokenize_string hd s at_
  constructor
  · rintro ⟨t, ms, ht, hread, hsame⟩
    obtain rfl := Except.ok.inj (hdump.symm.trans ht)
    have hf := Dialect.read_eq_ok_iff.1 hread
    have hplaces := Node.unplacedAll_of_sameAll hf.closedByTag_of_mem
      (by simp [Node.postorder, Node.ClosedByTag]) hsame
    obtain ⟨at', rfl⟩ := Node.eq_string_of_unplacedAll hplaces
    rw [← byMarks_eq_byKind h] at hf
    obtain ⟨ts, rfl, hts, hcells⟩ := hf.form.texts_of_string hd
    rw [hcells] at htexts
    exact ⟨ts, rfl, stringPieces_of_lex h hts (List.cons.inj htexts).2.symm⟩
  · rintro ⟨ps, rfl, hp⟩
    rw [hp.lex_flatten h hd.quote [], lex_nil, ← List.cons_append] at htexts
    obtain ⟨o, mid, c, hcells, ho, hmid, hc⟩ := Spelling.exists_between htexts
    have hinside : ∀ x ∈ mid, ¬ d.byMarks.quote x.text := by
      intro x hx
      refine hp.ne_quote h x.text ?_
      rw [← hmid]
      exact List.mem_map_of_mem hx
    have hopen : d.byMarks.quote o.text := by rw [ho]; exact hd.quote
    have hclose : d.byMarks.quote c.text := by rw [hc]; exact hd.quote
    have hf := Forest.string hopen hinside hclose
    rw [← hcells, byMarks_eq_byKind h, hmid] at hf
    exact ⟨_, _, hdump, Dialect.read_eq_ok_iff.2 hf, by simp⟩

/-! ## 5. Where a string breaks off -/

/-- The place of a character in two texts side by side. -/
theorem split_at_char {w : Text} (hsplit : t ++ w = u ++ e :: v) :
    (∃ a, u = t ++ a ∧ w = a ++ e :: v) ∨ ∃ b, t = u ++ e :: b ∧ v = b ++ w := by
  rcases List.append_eq_append_iff.1 hsplit with ⟨a, rfl, hw⟩ | ⟨a, rfl, hw⟩
  · exact .inl ⟨a, rfl, hw⟩
  · cases a with
    | nil => exact .inl ⟨[], by simp, hw.symm⟩
    | cons x b =>
      obtain ⟨rfl, rfl⟩ := List.cons.inj hw
      exact .inr ⟨b, rfl, rfl⟩

namespace Dialect

theorem not_endsInTag_nil (d : Dialect) : ¬ d.EndsInTag [] := by
  rintro ⟨front, c, body, hnil, -⟩
  simp at hnil

/-- Behind something that ends a run a text in the middle of a tag is in the middle of it. -/
theorem EndsInTag.append (hu : d.EndsInTag u) (ht : ∀ e ∈ t.getLast?, d.Breaks e) :
    d.EndsInTag (t ++ u) := by
  obtain ⟨front, c, body, rfl, hc, hbody, hfront⟩ := hu
  refine ⟨t ++ front, c, body, (List.append_assoc ..).symm, hc, hbody, ?_⟩
  intro e he
  rw [List.getLast?_append] at he
  cases hlast : front.getLast? with
  | none =>
    rw [hlast] at he
    exact ht e he
  | some e' =>
    rw [hlast] at he
    exact hfront e (hlast.trans he)

/-- A tag that two texts side by side end in begins in the one or in the other. -/
theorem EndsInTag.of_append (hu : d.EndsInTag (t ++ u)) : d.EndsInTag t ∨ d.EndsInTag u := by
  obtain ⟨front, c, body, hsplit, hc, hbody, hfront⟩ := hu
  rcases split_at_char hsplit with ⟨a, rfl, rfl⟩ | ⟨b, rfl, rfl⟩
  · refine .inr ⟨a, c, body, rfl, hc, hbody, ?_⟩
    intro e he
    refine hfront e ?_
    rw [List.getLast?_append, Option.mem_def.1 he]
    rfl
  · exact .inl ⟨front, c, b, rfl, hc, fun x hx => hbody x (List.mem_append_left _ hx), hfront⟩

/-- What a text in the middle of a tag ends in does not end the tag. -/
theorem EndsInTag.not_breaks_last (h : d.Regular) (hu : d.EndsInTag (t ++ [e])) :
    ¬ d.Breaks e := by
  obtain ⟨front, c, body, hsplit, hc, hbody, -⟩ := hu
  refine not_breaks_of_mem_tag h hc hbody e (List.mem_of_getLast? ?_)
  have hlast : (front ++ c :: body).getLast? = some e := by rw [← hsplit, List.getLast?_concat]
  rwa [List.getLast?_append, List.getLast?_cons, Option.some_or, ← List.getLast?_cons] at hlast

/-- A run that is in the middle of a tag begins with the sharp. -/
theorem EndsInTag.startsSharp (hu : d.EndsInTag u) (hrun : ∀ x ∈ u, ¬ d.Breaks x) :
    d.StartsSharp u := by
  obtain ⟨front, c, body, rfl, hc, -, hfront⟩ := hu
  cases hlast : front.getLast? with
  | none =>
    obtain rfl := List.getLast?_eq_none_iff.1 hlast
    exact hc
  | some e =>
    exact absurd (hfront e hlast) (hrun e (List.mem_append_left _ (List.mem_of_getLast? hlast)))

end Dialect

/-- What ends a run, the delimiters other than the quote excepted, is the end of a tag. -/
theorem StringPieces.endsInTag_front (h : d.Regular) (hp : StringPieces d ps)
    (he : d.isBlank [e] = true ∨ d.mark .quote = some [e]) (hs : ps.flatten = u ++ e :: v) :
    d.EndsInTag u := by
  have hbreaks : d.Breaks e := he.imp_right Dialect.isDelimiter_of_quote
  induction hp generalizing u with
  | nil => simp at hs
  | @delimiter c ps hd hne _ ih =>
    rw [List.flatten_cons] at hs
    rcases split_at_char hs with ⟨a, rfl, ha⟩ | ⟨b, hb, -⟩
    · refine (ih ha).append ?_
      rintro x ⟨⟩
      exact .inr hd
    · obtain ⟨rfl, rfl⟩ : u = [] ∧ c = e := by
        cases u with
        | nil => exact ⟨rfl, (List.cons.inj hb).1⟩
        | cons x u => simp at hb
      rcases he with he | he
      · rw [h.not_blank_of_delimiter hd] at he
        cases he
      · exact absurd he hne
  | @run c body ps hrun _ hhead _ ih =>
    rw [List.flatten_cons] at hs
    rcases split_at_char hs with ⟨a, rfl, ha⟩ | ⟨b, hb, -⟩
    · have hu := ih ha
      -- The tag begins behind the delimiter that the run stops at.
      cases ps with
      | nil => simp at ha
      | cons p ps =>
        have hd := hhead p rfl
        obtain ⟨x, rfl⟩ := h.single_of_delimiter hd
        cases a with
        | nil => exact absurd hu (d.not_endsInTag_nil)
        | cons y a =>
          obtain rfl : x = y := (List.cons.inj ha).1
          rw [← List.singleton_append] at hu
          rcases hu.of_append with hx | hu
          · exact absurd (.inr hd) (hx.not_breaks_last (t := []) h)
          · rw [List.append_cons]
            refine hu.append ?_
            rw [List.getLast?_concat]
            rintro e ⟨⟩
            exact .inr hd
    · exact absurd hbreaks (hrun e (by simp [hb]))
  | @tag c e' body ps hc hbody he' _ ih =>
    rw [List.flatten_cons] at hs
    rcases split_at_char hs with ⟨a, rfl, ha⟩ | ⟨b, hb, -⟩
    · refine (ih ha).append ?_
      rw [List.getLast?_concat]
      rintro x ⟨⟩
      exact he'
    · rcases split_at_char hb with ⟨a, rfl, ha⟩ | ⟨b', hb', -⟩
      · cases a with
        | nil => exact ⟨[], c, body, by simp, hc, hbody, by simp⟩
        | cons x a => simp at ha
      · exact absurd hbreaks (Dialect.not_breaks_of_mem_tag h hc hbody e (by simp [hb']))

/-- **Pieces do not end in the middle of a tag.** -/
theorem StringPieces.not_endsInTag (h : d.Regular) (hp : StringPieces d ps) :
    ¬ d.EndsInTag ps.flatten := by
  induction hp with
  | nil => exact d.not_endsInTag_nil
  | @delimiter c ps hd _ _ ih =>
    intro hu
    rcases hu.of_append with hc | hu
    · exact hc.not_breaks_last (t := []) h (.inr hd)
    · exact ih hu
  | @run c body ps hrun hs _ _ ih =>
    intro hu
    rcases hu.of_append with hc | hu
    · exact hs (hc.startsSharp hrun)
    · exact ih hu
  | @tag c e body ps _ _ he _ ih =>
    intro hu
    rcases hu.of_append with hc | hu
    · exact hc.not_breaks_last h he
    · exact ih hu

/-! ## 6. The dialects of the library -/

/-- **Which strings survive printing**, in the plain dialect and in the one for sources that span
lines.

* Every string is printed, between two quotes, and the printed text reads as the same string
  exactly if the string can be cut into pieces.
* If it does, then in front of each blank and each quote the string is in the middle of a tag.
* If the string ends in the middle of a tag, then it does not. -/
theorem string_reads_back_iff {d : Dialect} (hd : d = Table.plain.dialect ∨ d = Table.lines.dialect)
    (s : Text) (at_ : Bounds) :
    Node.dump [.string s at_] = .ok ('"' :: s ++ ['"']) ∧
      (d.ReadsBack [.string s at_] ↔ ∃ ps, ps.flatten = s ∧ StringPieces d ps) ∧
      (d.ReadsBack [.string s at_] → ∀ u c v, s = u ++ c :: v → d.isBlank [c] = true ∨ c = '"' →
        d.EndsInTag u) ∧
      (d.EndsInTag s → ¬ d.ReadsBack [.string s at_]) := by
  have hprinted : d.Printed := by
    rcases hd with rfl | rfl
    · exact Dialect.plain_printed
    · exact Dialect.lines_printed
  have hiff := Dialect.readsBack_string_iff hprinted s at_
  refine ⟨?_, hiff, ?_, ?_⟩
  · rw [Node.dump_eq_ok rfl, Node.printAll_string]
    rfl
  · rintro hback u c v rfl hc
    obtain ⟨ps, hps, hp⟩ := hiff.1 hback
    refine hp.endsInTag_front hprinted.regular (hc.imp_right ?_) hps
    rintro rfl
    exact hprinted.quote
  · intro hs hback
    obtain ⟨ps, rfl, hp⟩ := hiff.1 hback
    exact hp.not_endsInTag hprinted.regular hs

/-- A run in front of a bracket, and a tag that keeps a comment mark and takes in a quote: the
string survives.  Without the quote it ends in the middle of the tag and does not. -/
theorem string_reads_back_glued_quote :
    let d := Table.lines.dialect
    d.ReadsBack [.string ['a', '(', '#', ';', '"'] {}] ∧ d.EndsInTag ['a', '(', '#', ';'] ∧
      ¬ d.ReadsBack [.string ['a', '(', '#', ';'] {}] := by
  intro d
  have hpieces : StringPieces d [['a'], ['('], ['#', ';', '"']] := by
    have htag : StringPieces d [['#', ';', '"']] :=
      @StringPieces.tag d '#' '"' [';'] [] rfl (List.forall_mem_singleton.2 (by decide))
        (by decide) .nil
    have hbracket : StringPieces d [['('], ['#', ';', '"']] :=
      .delimiter (by decide) (by decide) htag
    refine .run (List.forall_mem_singleton.2 (by decide)) (by decide) ?_ hbracket
    rintro p ⟨⟩
    decide
  obtain ⟨-, hiff, hfront, -⟩ := string_reads_back_iff (.inr rfl) ['a', '(', '#', ';', '"'] {}
  have hback : d.ReadsBack [.string ['a', '(', '#', ';', '"'] {}] := hiff.2 ⟨_, rfl, hpieces⟩
  have htag : d.EndsInTag ['a', '(', '#', ';'] :=
    hfront hback ['a', '(', '#', ';'] '"' [] rfl (.inr rfl)
  exact ⟨hback, htag, (string_reads_back_iff (.inr rfl) ['a', '(', '#', ';'] {}).2.2.2 htag⟩

end
end SharpForms
