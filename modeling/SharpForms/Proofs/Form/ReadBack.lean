/-
# What is read is printed and read back

Reading, printing and reading again gives the same forms, if no string holds the sharp
(`read_dump`).  A string is printed as it is, and a sharp in it that glued onto a blank before may
glue onto the closing quote now, so strings with a sharp are left out.

The tokens that a text is cut into are lexemes, so the forms read from them have a spelling
(`Forest.exists_spelling`), and what has a spelling reads back.  One kind of form has none, a bare
tag.  As the last of all forms it is printed at the end of the text, where nothing stops it again,
so it is enough if no other form is bare (`Dialect.read_printAll_of_bareLast`).  In a dialect
without comments no other form can be (`Forest.bareLast`).
-/
import SharpForms.Proofs.Form.Spelling
import SharpForms.Proofs.Form.Tiling
import SharpForms.Proofs.Token.Bare

namespace SharpForms

/-! ## 1. What is asked of the forms -/

/-- No string, at any depth, holds the sharp. -/
def Sharpless (d : Dialect) (ns : List Node) : Prop :=
  ∀ t at_, .string t at_ ∈ Node.postorderAll ns → ∀ c ∈ t, d.plays .sharp [c] = false

/-- The form is a tag that nothing has stopped. -/
def Node.IsBare (d : Dialect) : Node → Prop
  | .dispatch tag _ none _ => d.Bare tag
  | _ => False

/-- No form, at any depth, is a tag that nothing has stopped. -/
def Stopped (d : Dialect) (ns : List Node) : Prop := ∀ n ∈ Node.postorderAll ns, ¬ n.IsBare d

/-- No form, at any depth, is a tag that nothing has stopped, unless it is the last of all. -/
def BareLast (d : Dialect) (ns : List Node) : Prop :=
  (Node.postorderAll ns).Pairwise fun n _ => ¬ n.IsBare d

section

variable {d : Dialect} {ns ns' : List Node} {n : Node}

theorem sharpless_append : Sharpless d (ns ++ ns') ↔ Sharpless d ns ∧ Sharpless d ns' := by
  simp only [Sharpless, Node.postorderAll_append, List.mem_append]
  constructor
  · intro h
    exact ⟨fun t at_ hm => h t at_ (.inl hm), fun t at_ hm => h t at_ (.inr hm)⟩
  · rintro ⟨h, h'⟩ t at_ (hm | hm)
    · exact h t at_ hm
    · exact h' t at_ hm

theorem stopped_nil : Stopped d [] := by simp [Stopped, Node.postorderAll]

theorem stopped_append : Stopped d (ns ++ ns') ↔ Stopped d ns ∧ Stopped d ns' := by
  simp only [Stopped, Node.postorderAll_append, List.forall_mem_append]

/-- Inside a form there are no other strings than in it. -/
theorem Sharpless.inside (h : Sharpless d [n]) (hn : n.postorder = Node.postorderAll ns ++ [n]) :
    Sharpless d ns := by
  intro t at_ hm
  refine h t at_ ?_
  rw [Node.postorderAll_singleton, hn]
  exact List.mem_append_left _ hm

/-- A form around others is stopped if they are and it is no tag without a region. -/
theorem stopped_around (hn : n.postorder = Node.postorderAll ns ++ [n]) :
    Stopped d [n] ↔ Stopped d ns ∧ ¬ n.IsBare d := by
  rw [Stopped, Node.postorderAll_singleton, hn, List.forall_mem_append, List.forall_mem_singleton]
  rfl

theorem stopped_single (hn : n.postorder = [n]) : Stopped d [n] ↔ ¬ n.IsBare d := by
  simp [Stopped, hn]

end

/-! ## 2. Lexemes of a string -/

namespace Dialect

variable {d : Dialect} {flag : Bool} {t u : Text} {ts us : List Text}

/-- A lexeme of a string without sharps has no blanks and no quotes in it, and of the delimiters
none but itself. -/
theorem Lexeme.fitsString (h : d.Regular) (ht : d.Lexeme flag t) (hq : d.mark .quote ≠ some t)
    (hs : ∀ c ∈ t, d.plays .sharp [c] = false) :
    (∀ c ∈ t, d.FitsString c) ∧ ∀ c ∈ t, d.isDelimiter [c] = true → t = [c] := by
  cases ht with
  | @delimiter c hd =>
    refine ⟨?_, ?_⟩
    · intro x hx
      obtain rfl := List.mem_singleton.1 hx
      exact ⟨h.not_blank_of_delimiter hd, by simpa [plays] using hq, hs x hx⟩
    · intro x hx _
      rw [List.mem_singleton.1 hx]
  | @run c body hrun hheader =>
    have hdelim : ∀ x ∈ c :: body, d.isDelimiter [x] = false :=
      fun x hx => (Scanner.inRun_iff.1 (hrun x hx)).2.1
    refine ⟨?_, ?_⟩
    · intro x hx
      have hquote := (h.ne_quote_of_not_delimiter hdelim).2 x hx
      exact ⟨(Scanner.inRun_iff.1 (hrun x hx)).1, by simpa [plays] using hquote, hs x hx⟩
    · intro x hx hd
      rw [hdelim x hx] at hd
      cases hd
  | @glued c e body _ _ hsharp _ =>
    rw [hs c (by simp)] at hsharp
    cases hsharp

/-- Tokens side by side are lexemes if those in front are, and those behind for the flag that
the ones in front leave. -/
theorem lexed_append :
    d.Lexed flag (ts ++ us) ↔ d.Lexed flag ts ∧ d.Lexed (d.inStringAfterAll flag ts) us := by
  induction ts generalizing flag with
  | nil => exact ⟨fun h => ⟨.nil, h⟩, fun h => h.2⟩
  | cons t ts ih =>
    rw [List.cons_append, inStringAfterAll_cons]
    constructor
    · intro h
      cases h with
      | cons ht hts => exact ⟨.cons ht (ih.1 hts).1, (ih.1 hts).2⟩
    · rintro ⟨h, hus⟩
      cases h with
      | cons ht hts => exact .cons ht (ih.2 ⟨hts, hus⟩)

/-- The first token of a stretch, and those between it and the last one. -/
theorem Lexed.between (h : d.Lexed flag (t :: ts ++ [u])) :
    d.Lexeme flag t ∧ d.Lexed (d.inStringAfter flag t) ts := by
  cases h with
  | cons ht hts => exact ⟨ht, (lexed_append.1 hts).1⟩

/-- Inside a string all tokens are lexemes for the flag that is set. -/
theorem Lexed.lexeme_of_mem (h : d.Lexed true ts) (hts : ∀ w ∈ ts, d.mark .quote ≠ some w) :
    ∀ w ∈ ts, d.Lexeme true w := by
  induction ts with
  | nil => simp
  | cons w ts ih =>
    cases h with
    | cons hw hrest =>
      have hflag : d.inStringAfter true w = true := by
        simpa [inStringAfter, plays] using hts w List.mem_cons_self
      rw [hflag] at hrest
      exact List.forall_mem_cons.2
        ⟨hw, ih hrest fun x hx => hts x (List.mem_cons_of_mem w hx)⟩

/-- The characters of a string without sharps, and the delimiters among them. -/
theorem Lexed.fitsString_flatten (h : d.Regular) (hl : d.Lexed true ts)
    (hts : ∀ w ∈ ts, d.mark .quote ≠ some w)
    (hs : ∀ c ∈ ts.flatten, d.plays .sharp [c] = false) :
    (∀ c ∈ ts.flatten, d.FitsString c) ∧
      ∀ c ∈ ts.flatten, d.isDelimiter [c] = true → [c] ∈ ts := by
  have hfits := fun w hw => (hl.lexeme_of_mem hts w hw).fitsString h (hts w hw)
    fun c hc => hs c (List.mem_flatten.2 ⟨w, hw, hc⟩)
  refine ⟨?_, ?_⟩
  · intro c hc
    obtain ⟨w, hw, hcw⟩ := List.mem_flatten.1 hc
    exact (hfits w hw).1 c hcw
  · intro c hc hd
    obtain ⟨w, hw, hcw⟩ := List.mem_flatten.1 hc
    rw [← (hfits w hw).2 c hcw hd]
    exact hw

/-- The delimiters among the one are found among the other. -/
def DelimitersAmong (d : Dialect) (ts us : List Text) : Prop :=
  ∀ w ∈ ts, d.isDelimiter w = true → w ∈ us

theorem DelimitersAmong.refl (d : Dialect) (ts : List Text) : d.DelimitersAmong ts ts :=
  fun _ hw _ => hw

theorem DelimitersAmong.append {ts' us' : List Text} (h : d.DelimitersAmong ts us)
    (h' : d.DelimitersAmong ts' us') : d.DelimitersAmong (ts ++ ts') (us ++ us') := by
  intro w hw hd
  rcases List.mem_append.1 hw with hw | hw
  · exact List.mem_append_left _ (h w hw hd)
  · exact List.mem_append_right _ (h' w hw hd)

theorem DelimitersAmong.between (h : d.DelimitersAmong ts us) :
    d.DelimitersAmong (t :: ts ++ [u]) (t :: us ++ [u]) :=
  .append (.append (.refl d [t]) h) (.refl d [u])

/-- **The characters of a string are cut up anew, but not into other delimiters.** -/
theorem Lexed.delimitersAmong_string (h : d.Printed) (hl : d.Lexed true ts)
    (hts : ∀ w ∈ ts, d.mark .quote ≠ some w)
    (hs : ∀ c ∈ ts.flatten, d.plays .sharp [c] = false) :
    d.DelimitersAmong (d.lex true ts.flatten) ts := by
  obtain ⟨hfits, hdelim⟩ := hl.fitsString_flatten h.regular hts hs
  intro w hw hd
  obtain ⟨c, rfl⟩ := h.regular.single_of_delimiter hd
  refine hdelim c ?_ hd
  rw [← (lex_string h.regular h.quote hfits).1]
  exact List.mem_flatten.2 ⟨[c], hw, List.mem_singleton.2 rfl⟩

end Dialect

/-! ## 3. What is read has a spelling -/

section

variable {d : Dialect} {flag : Bool} {o c : Cell} {cs : List Cell} {ns : List Node}

/-- The texts of tokens between two others. -/
theorem Cell.map_text_between (o c : Cell) (cs : List Cell) :
    (o :: cs ++ [c]).map Cell.text = o.text :: cs.map Cell.text ++ [c.text] := by
  simp

/-- With the string flag set, none of the tokens may be the quote. -/
def Unquoted (d : Dialect) (flag : Bool) (cs : List Cell) : Prop :=
  flag = true → ∀ x ∈ cs, d.mark .quote ≠ some x.text

theorem unquoted_false : Unquoted d false cs := nofun

theorem Unquoted.of_subset {cs' : List Cell} (h : Unquoted d flag cs') (hcs : cs ⊆ cs') :
    Unquoted d flag cs :=
  fun hf x hx => h hf x (hcs hx)

/-- What stands between two others. -/
theorem Unquoted.inside (h : Unquoted d flag (o :: cs ++ [c])) : Unquoted d flag cs :=
  h.of_subset fun x hx => by simp [hx]

/-- Behind a forest the string flag is what it was in front of it. -/
theorem Forest.inStringAfterAll_eq (h : d.Regular) (hf : Forest d.byMarks cs ns)
    (ha : Ascending cs) (hflag : Unquoted d flag cs) :
    d.inStringAfterAll flag (cs.map Cell.text) = flag := by
  cases flag with
  | false => exact (hf.flagAgrees h ha).1
  | true => exact (Dialect.flagged_true (hflag rfl)).1

/-- **Forms read from lexemes have a spelling.**  Of the delimiters, only those that stand among
the tokens turn up in it. -/
theorem Forest.exists_spelling (hd : d.Printed) (hf : Forest d.byMarks cs ns) (ha : Ascending cs)
    (hflag : Unquoted d flag cs) (hl : d.Lexed flag (cs.map Cell.text)) (hs : Sharpless d ns)
    (hb : Stopped d ns) :
    ∃ ts, Spelling d flag ns ts ∧ d.DelimitersAmong ts (cs.map Cell.text) := by
  have h := hd.regular
  induction hf generalizing flag with
  | empty => exact ⟨[], .empty, .refl d []⟩
  | @append cs cs' ns ns' hf _ ih ih' =>
    obtain ⟨ha1, ha2, -⟩ := ascending_append.1 ha
    have hflag1 : Unquoted d flag cs := hflag.of_subset (List.subset_append_left cs cs')
    have hflag2 : Unquoted d flag cs' := hflag.of_subset (List.subset_append_right cs cs')
    rw [List.map_append, Dialect.lexed_append, hf.inStringAfterAll_eq h ha1 hflag1] at hl
    obtain ⟨ts, hts, hmem⟩ :=
      ih ha1 hflag1 hl.1 (sharpless_append.1 hs).1 (stopped_append.1 hb).1
    obtain ⟨ts', hts', hmem'⟩ :=
      ih' ha2 hflag2 hl.2 (sharpless_append.1 hs).2 (stopped_append.1 hb).2
    refine ⟨ts ++ ts', hts.append hts', ?_⟩
    rw [List.map_append]
    exact hmem.append hmem'
  | @literal c ht =>
    cases hl with
    | cons hlex _ => exact ⟨[c.text], .literal ht hlex, .refl d _⟩
  | @tag c ht =>
    cases hl with
    | cons hlex _ => exact ⟨[c.text], .tag ht hlex ((stopped_single rfl).1 hb), .refl d _⟩
  | @group b o c cs ns ho _ hc ih =>
    have hopen : [b.openChar] = o.text := Option.some.inj ((hd.opener b).symm.trans ho)
    have hclose : [b.closeChar] = c.text := Option.some.inj ((hd.closer b).symm.trans hc)
    rw [Cell.map_text_between] at hl ⊢
    have hin := hl.between.2
    rw [h.inStringAfter_of_delimiter (Dialect.isDelimiter_of_opener ho),
      h.not_plays rfl rfl (by simp) ho, Bool.xor_false] at hin
    obtain ⟨ts, hts, hmem⟩ :=
      ih (ascending_between ha).1 hflag.inside hin (hs.inside rfl) ((stopped_around rfl).1 hb).1
    refine ⟨_, .group hts, ?_⟩
    rw [hopen, hclose]
    exact hmem.between
  | @string o c cs ho hcs hc =>
    have hopen : ['"'] = o.text := Option.some.inj (hd.quote.symm.trans ho)
    have hclose : c.text = o.text := Option.some.inj (hc.symm.trans ho)
    have hquotes : ∀ w ∈ cs.map Cell.text, d.mark .quote ≠ some w := List.forall_mem_map.2 hcs
    have hsharps := hs (cs.map Cell.text).flatten (o.boundsTo c) (by simp [Node.postorder])
    obtain rfl : flag = false := by
      rw [Bool.eq_false_iff]
      intro hf
      exact hflag hf o List.mem_cons_self ho
    rw [Cell.map_text_between] at hl ⊢
    have hin := hl.between.2
    have henter : d.inStringAfter false o.text = true := h.entersString_iff.2 (.inl ho)
    rw [henter] at hin
    refine ⟨_, .string (hin.fitsString_flatten h hquotes hsharps).1, ?_⟩
    rw [hopen, hclose]
    exact (hin.delimitersAmong_string hd hquotes hsharps).between
  | @region o c cs ns hr hcs _ ih =>
    obtain ⟨last, e, hlast, hclose, -, hde, hquote⟩ := Dialect.ends_of_region h hr
    rw [← hclose] at hde hquote
    rw [Cell.map_text_between] at hl ⊢
    obtain ⟨hlex, hin⟩ := hl.between
    rw [h.inStringAfter_of_startsSharp hr.1 hlast, hquote] at hin
    -- A region between quotes has no other quote in it.
    have hinside : Unquoted d (flag || d.plays .quote c.text) cs := by
      intro hf x hx hm
      rw [Bool.or_eq_true] at hf
      rcases hf with hf | hq
      · exact hflag.inside hf x hx hm
      · exact hcs x hx (Option.some.inj (hm.symm.trans ((d.plays_iff _ _).1 hq)))
    have hout : d.mark .quote = some c.text → flag = false := by
      intro hq
      rw [Bool.eq_false_iff]
      intro hf
      exact hflag hf c (by simp) hq
    obtain ⟨ts, hts, hmem⟩ :=
      ih (ascending_between ha).1 hinside hin (hs.inside rfl) ((stopped_around rfl).1 hb).1
    have hne : ∀ u ∈ ts, u ≠ c.text := by
      rintro u hu rfl
      obtain ⟨x, hx, hxc⟩ := List.mem_map.1 (hmem _ hu hde)
      exact hcs x hx hxc
    exact ⟨_, .region hr hlex hout hts hne, hmem.between⟩

end

/-! ## 4. Bare tags -/

section

variable {d : Dialect} {cs : List Cell} {ns : List Node}

/-- A bare form is a token. -/
theorem Forest.exists_bare_token {L : Lexicon} (hf : Forest L cs ns) {n : Node}
    (hn : n ∈ Node.postorderAll ns) (hbare : n.IsBare d) : ∃ c ∈ cs, d.Bare c.text := by
  obtain ⟨before, mid, after, rfl, hform⟩ := hf.exists_form_of_mem hn
  cases hform with
  | @tag c _ => exact ⟨c, by simp, hbare⟩
  | literal | group | string | region => exact hbare.elim

/-- **A bare tag is the last of all forms**, if only the last of all tokens can be bare. -/
theorem Forest.bareLast {L : Lexicon} (hf : Forest L cs ns)
    (hp : (cs.map Cell.text).Pairwise fun t _ => ¬ d.Bare t) : BareLast d ns := by
  -- In front of another token no form is bare.
  have front : ∀ {cs cs' : List Cell} {ns : List Node} {c : Cell}, Forest L cs ns → c ∈ cs' →
      ((cs ++ cs').map Cell.text).Pairwise (fun t _ => ¬ d.Bare t) →
        ∀ n ∈ Node.postorderAll ns, ¬ n.IsBare d := by
    intro cs cs' ns c hf hc hp n hn hbare
    obtain ⟨x, hx, hxbare⟩ := hf.exists_bare_token hn hbare
    rw [List.map_append, List.pairwise_append] at hp
    exact hp.2.2 _ (List.mem_map_of_mem hx) _ (List.mem_map_of_mem hc) hxbare
  induction hf with
  | empty => exact .nil
  | literal | string | tag => exact List.pairwise_singleton _ _
  | @append cs₁ cs₂ ns₁ ns₂ hf₁ hf₂ ih₁ ih₂ =>
    have hparts := hp
    rw [List.map_append, List.pairwise_append] at hparts
    rw [BareLast, Node.postorderAll_append, List.pairwise_append]
    refine ⟨ih₁ hparts.1, ih₂ hparts.2.1, ?_⟩
    intro n hn m hm
    have hcs₂ : cs₂ ≠ [] := by
      rintro rfl
      rw [hf₂.nodes_eq_nil rfl] at hm
      cases hm
    obtain ⟨c, hc⟩ := List.exists_mem_of_ne_nil cs₂ hcs₂
    exact front hf₁ hc hp n hn
  | @group _ o c cs ns _ hf _ ih | @region o c cs ns _ _ hf ih =>
    rw [List.cons_append, List.map_cons] at hp
    have hinner := (List.pairwise_cons.1 hp).2
    rw [BareLast, Node.postorderAll_singleton, Node.postorder, List.pairwise_append]
    refine ⟨?_, List.pairwise_singleton _ _, ?_⟩
    · rw [List.map_append, List.pairwise_append] at hinner
      exact ih hinner.1
    · intro n hn _ _
      exact front hf (List.mem_singleton.2 rfl) hinner n hn

/-- In front of other forms none is bare. -/
theorem BareLast.of_append {ns' : List Node} (h : BareLast d (ns ++ ns')) :
    BareLast d ns ∧ BareLast d ns' ∧ (ns' = [] ∨ Stopped d ns) := by
  rw [BareLast, Node.postorderAll_append, List.pairwise_append] at h
  refine ⟨h.1, h.2.1, ?_⟩
  cases ns' with
  | nil => exact .inl rfl
  | cons m ms =>
    refine .inr ?_
    intro n hn
    exact h.2.2 n hn m (List.mem_append_left _ m.mem_postorder_self)

/-- Only the last of all forms can be bare, so it can be split off together with its token. -/
theorem Forest.split_bare (hf : Forest d.byMarks cs ns) (hb : BareLast d ns) :
    Stopped d ns ∨ ∃ cs' ms c, cs = cs' ++ [c] ∧
      ns = ms ++ [.dispatch c.text [] none (c.boundsTo c)] ∧ Forest d.byMarks cs' ms ∧
      Stopped d ms ∧ d.byMarks.tag c.text ∧ d.Bare c.text := by
  induction hf with
  | empty => exact .inl stopped_nil
  | literal => exact .inl ((stopped_single rfl).2 id)
  | string => exact .inl ((stopped_single rfl).2 id)
  | @tag c ht =>
    by_cases hbare : d.Bare c.text
    · exact .inr ⟨[], [], c, rfl, rfl, .empty, stopped_nil, ht, hbare⟩
    · exact .inl ((stopped_single rfl).2 hbare)
  | group | region =>
    refine .inl ((stopped_around rfl).2 ⟨?_, id⟩)
    rw [BareLast, Node.postorderAll_singleton, Node.postorder, List.pairwise_append] at hb
    intro n hn
    exact hb.2.2 n hn _ List.mem_cons_self
  | @append cs₁ cs₂ ns₁ ns₂ hf₁ hf₂ ih₁ ih₂ =>
    obtain ⟨hb₁, hb₂, rfl | hs₁⟩ := hb.of_append
    · obtain rfl := hf₂.cells_eq_nil rfl
      rw [List.append_nil, List.append_nil]
      exact ih₁ hb₁
    · rcases ih₂ hb₂ with hs₂ | ⟨cs', ms, c, rfl, rfl, hms, hs, ht, hbare⟩
      · exact .inl (stopped_append.2 ⟨hs₁, hs₂⟩)
      · refine .inr ⟨cs₁ ++ cs', ns₁ ++ ms, c, ?_, ?_, hf₁.append hms, ?_, ht, hbare⟩
        · rw [List.append_assoc]
        · rw [List.append_assoc]
        · exact stopped_append.2 ⟨hs₁, hs⟩

end

/-! ## 5. Texts -/

section

variable {d : Dialect} {ns : List Node} {ts : List Text} {s t : Text}

/-- The texts of the numbered tokens of a text are those of the lexer. -/
theorem Dialect.map_text_tokenize (h : d.Regular) (t : Text) :
    (Cell.number 0 (d.tokenize (Text.units t))).map Cell.text = d.lex false t := by
  rw [Cell.map_text_number]
  exact Scanner.texts_eq_lex h rfl

/-- The tokens of the printed text are the spelling. -/
theorem Spelling.texts_tokenize (hd : d.Printed) (h : Spelling d false ns ts) :
    (d.tokenize (Text.units (Node.printAll ns))).map Token.text = ts := by
  have hlex : d.lex false (Node.printAll ns ++ []) = ts ++ d.lex false [] :=
    h.lex_append hd Dialect.stops_nil
  rw [List.append_nil, Dialect.lex_nil, List.append_nil] at hlex
  rw [← Cell.map_text_number 0, Dialect.map_text_tokenize hd.regular, hlex]

theorem Node.dump_eq_ok (h : Node.unprintableAmong? ns = none) :
    Node.dump ns = .ok (Node.printAll ns) := by
  rw [Node.dump, h]

/-- All forms can be printed. -/
theorem Forest.dump_eq_ok {L : Lexicon} {cs : List Cell} (hf : Forest L cs ns) :
    Node.dump ns = .ok (Node.printAll ns) := by
  refine Node.dump_eq_ok ?_
  induction hf with
  | empty | literal | string | tag => rfl
  | append _ _ ih ih' =>
    rw [Node.unprintableAmong?_eq_none_iff] at ih ih' ⊢
    exact List.forall_mem_append.2 ⟨ih, ih'⟩
  | group _ _ _ ih | region _ _ _ ih =>
    simp [Node.unprintableAmong?, Node.unprintable?, ih]

/-- **What has a spelling reads back.** -/
theorem Spelling.read_printAll (hd : d.Printed) (h : Spelling d false ns ts) :
    ∃ ms, (d.read (d.tokenize (Text.units (Node.printAll ns)))).result = .ok ms ∧
      Node.unplacedAll ms = Node.unplacedAll ns := by
  have htexts := h.texts_tokenize hd
  rw [← Cell.map_text_number 0] at htexts
  obtain ⟨ms, hms, hsame⟩ := h.exists_forest hd htexts
  rw [Dialect.byMarks_eq_byKind hd.regular] at hms
  exact ⟨ms, Dialect.read_eq_ok_iff.2 hms, hsame⟩

/-- So does a bare tag behind it. -/
theorem Spelling.read_printAll_bare (hd : d.Printed) (h : Spelling d false ns ts) {at_ : Bounds}
    (ht : d.byMarks.tag t) (hlex : d.Lexeme false t) (hbare : d.Bare t) :
    ∃ ms, (d.read (d.tokenize (Text.units
        (Node.printAll (ns ++ [.dispatch t [] none at_]))))).result = .ok ms ∧
      Node.unplacedAll ms = Node.unplacedAll (ns ++ [.dispatch t [] none at_]) := by
  have htexts := Dialect.map_text_tokenize hd.regular
    (Node.printAll (ns ++ [.dispatch t [] none at_]))
  rw [h.lex_concat_bare hd hlex hbare] at htexts
  obtain ⟨cs, cs', hcs, hfront, hback⟩ := List.map_eq_append_iff.1 htexts
  obtain ⟨c, rfl, rfl⟩ := List.map_eq_singleton_iff.1 hback
  obtain ⟨ms, hms, hsame⟩ := h.exists_forest hd hfront
  have hall := hms.append (.tag ht)
  rw [← hcs, Dialect.byMarks_eq_byKind hd.regular] at hall
  refine ⟨_, Dialect.read_eq_ok_iff.2 hall, ?_⟩
  rw [Node.unplacedAll_append, Node.unplacedAll_append, hsame]
  rfl

/-- **What a text reads as is printed and read back**, if only the last of the forms is bare. -/
theorem Dialect.read_printAll_of_bareLast (hd : d.Printed)
    (hr : (d.read (d.tokenize (Text.units t))).result = .ok ns) (hs : Sharpless d ns)
    (hb : BareLast d ns) :
    Node.dump ns = .ok (Node.printAll ns) ∧
      ∃ ms, (d.read (d.tokenize (Text.units (Node.printAll ns)))).result = .ok ms ∧
        Node.unplacedAll ms = Node.unplacedAll ns := by
  have h := hd.regular
  have hf := Dialect.read_eq_ok_iff.1 hr
  rw [← Dialect.byMarks_eq_byKind h] at hf
  have ha := (ascending_number 0 (d.tokenize (Text.units t))).1
  have hlexed := Dialect.lexed_lex h false t
  rw [← Dialect.map_text_tokenize h t] at hlexed
  refine ⟨hf.dump_eq_ok, ?_⟩
  rcases hf.split_bare hb with hb | ⟨cs, ms, c, hcs, rfl, hms, hb, ht, hc⟩
  · obtain ⟨ts, hts, -⟩ := hf.exists_spelling hd ha unquoted_false hlexed hs hb
    exact hts.read_printAll hd
  · rw [hcs] at ha hlexed
    have hfront := (ascending_append.1 ha).1
    rw [List.map_append, Dialect.lexed_append,
      hms.inStringAfterAll_eq h hfront unquoted_false] at hlexed
    obtain ⟨ts, hts, -⟩ :=
      hms.exists_spelling hd hfront unquoted_false hlexed.1 (sharpless_append.1 hs).1 hb
    cases hlexed.2 with
    | cons hlex _ => exact hts.read_printAll_bare hd ht hlex hc

/-- Where no comment stops a tag, only the last of the forms is bare. -/
theorem Dialect.bareLast_of_read (hr : (d.read (d.tokenize (Text.units t))).result = .ok ns)
    (ht : ∀ t₁ c t₂, t = t₁ ++ c :: t₂ → ¬ d.StopsTag t₁ c) : BareLast d ns := by
  refine (Dialect.read_eq_ok_iff.1 hr).bareLast ?_
  rw [Cell.map_text_number]
  exact Dialect.bare_last_tokenize ht

/-- In a dialect without comments this is always so. -/
theorem Dialect.read_printAll (hd : d.Printed) (hcomment : d.mark .comment = none)
    (hr : (d.read (d.tokenize (Text.units t))).result = .ok ns) (hs : Sharpless d ns) :
    Node.dump ns = .ok (Node.printAll ns) ∧
      ∃ ms, (d.read (d.tokenize (Text.units (Node.printAll ns)))).result = .ok ms ∧
        Node.unplacedAll ms = Node.unplacedAll ns :=
  read_printAll_of_bareLast hd hr hs <| bareLast_of_read hr fun t₁ c _ _ =>
    not_stopsTag_of_mark hcomment t₁ c

end

/-! ## 6. The plain dialect -/

theorem sharpless_of_mark {d : Dialect} (hmark : d.mark .sharp = some ['#']) {ns : List Node}
    (hs : ∀ text at_, .string text at_ ∈ Node.postorderAll ns → '#' ∉ text) : Sharpless d ns := by
  intro text at_ hm c hc
  rw [Dialect.plays_eq_false_iff, hmark]
  rintro ⟨⟩
  exact hs text at_ hm hc

/-- **What the plain dialect reads is printed and read back**, if no string holds a sharp.  The
forms are printed, and the printed text reads as forms that are the same; not only tags and items
agree, but also the text that ends each region, and only the places may differ. -/
theorem read_dump {t : Text} {ns : List Node}
    (hr : (Table.plain.dialect.read (Table.plain.dialect.tokenize (Text.units t))).result = .ok ns)
    (hs : ∀ text at_, .string text at_ ∈ Node.postorderAll ns → '#' ∉ text) :
    ∃ s, Node.dump ns = .ok s ∧
      ∃ ms, (Table.plain.dialect.read (Table.plain.dialect.tokenize (Text.units s))).result =
          .ok ms ∧
        Node.sameAll ms ns = true ∧ Node.unplacedAll ms = Node.unplacedAll ns := by
  obtain ⟨hdump, ms, hms, hsame⟩ :=
    Dialect.read_printAll Dialect.plain_printed rfl hr (sharpless_of_mark rfl hs)
  exact ⟨_, hdump, ms, hms, Node.sameAll_of_unplaced ms ns hsame, hsame⟩

/-- A tag that has taken in a blank and a string in a list, a region between quotes with a tag that
has taken in a closer, and a bare tag at the end. -/
theorem read_dump_tags :
    let tag (t : Text) (i : Nat) (char : Nat) : Node :=
      .dispatch t [] none ⟨some i, some i, some 1, some char⟩
    let list : Node := .group .round
      [tag ['#', 'x', ' '] 1 2, .string ['b'] ⟨some 2, some 4, some 1, some 5⟩]
      ⟨some 0, some 5, some 1, some 1⟩
    let region : Node := .dispatch ['#', '"'] [tag ['#', 'f', ')'] 7 12] (some ['"'])
      ⟨some 6, some 8, some 1, some 10⟩
    let ns : List Node := [list, region, tag ['#', 'h'] 9 17]
    (Table.plain.dialect.read (Table.plain.dialect.tokenize
        (Text.units "(#x \"b\"),#\"#f)\",#h".toList))).result = .ok ns ∧
      Node.dump ns = .ok "(#x  \"b\") #\"#f)\" #h".toList ∧
      ∃ ms, (Table.plain.dialect.read (Table.plain.dialect.tokenize
          (Text.units "(#x  \"b\") #\"#f)\" #h".toList))).result = .ok ms ∧
        Node.sameAll ms ns = true := by
  intro tag list region ns
  let cell (i : Nat) (t : Text) (char : Nat) : Cell := ⟨i, ⟨t, some 1, some char⟩⟩
  have htok : Table.plain.dialect.tokenize (Text.units "(#x \"b\"),#\"#f)\",#h".toList) =
      [⟨['('], some 1, some 1⟩, ⟨['#', 'x', ' '], some 1, some 2⟩, ⟨['"'], some 1, some 5⟩,
        ⟨['b'], some 1, some 6⟩, ⟨['"'], some 1, some 7⟩, ⟨[')'], some 1, some 8⟩,
        ⟨['#', '"'], some 1, some 10⟩, ⟨['#', 'f', ')'], some 1, some 12⟩,
        ⟨['"'], some 1, some 15⟩, ⟨['#', 'h'], some 1, some 17⟩] := by decide
  have hx : Forest Table.plain.dialect.byKind _ _ :=
    @Forest.tag _ (cell 1 ['#', 'x', ' '] 2) ⟨by decide, ' ', rfl, by decide⟩
  have hb : Forest Table.plain.dialect.byKind _ _ :=
    @Forest.string _ (cell 2 ['"'] 5) (cell 4 ['"'] 7) [cell 3 ['b'] 6]
      (by decide : Table.plain.dialect.kind ['"'] = .quote)
      (by decide : ∀ x ∈ [cell 3 ['b'] 6], Table.plain.dialect.kind x.text ≠ .quote)
      (by decide : Table.plain.dialect.kind ['"'] = .quote)
  have hlist : Forest Table.plain.dialect.byKind _ _ :=
    @Forest.group _ .round (cell 0 ['('] 1) (cell 5 [')'] 8) _ _
      (by decide : Table.plain.dialect.kind ['('] = .opener .round) (hx.append hb)
      (by decide : Table.plain.dialect.kind [')'] = .closer .round)
  have hf : Forest Table.plain.dialect.byKind _ _ :=
    @Forest.tag _ (cell 7 ['#', 'f', ')'] 12) ⟨by decide, ')', rfl, by decide⟩
  have hregion : Forest Table.plain.dialect.byKind _ _ :=
    @Forest.region _ (cell 6 ['#', '"'] 10) (cell 8 ['"'] 15) _ _
      ⟨by decide, '"', rfl, by decide⟩ (by decide) hf
  have hh : Forest Table.plain.dialect.byKind _ _ :=
    @Forest.tag _ (cell 9 ['#', 'h'] 17) ⟨by decide, 'h', rfl, by decide⟩
  have hr : (Table.plain.dialect.read (Table.plain.dialect.tokenize
      (Text.units "(#x \"b\"),#\"#f)\",#h".toList))).result = .ok ns := by
    rw [htok]
    exact Dialect.read_eq_ok_iff.2 (hlist.append (hregion.append hh))
  have hs : ∀ text at_, .string text at_ ∈ Node.postorderAll ns → '#' ∉ text := by
    intro text at_ hm
    obtain ⟨rfl, -⟩ : text = ['b'] ∧ at_ = ⟨some 2, some 4, some 1, some 5⟩ := by
      simpa [ns, list, region, tag, Node.postorderAll, Node.postorder] using hm
    decide
  obtain ⟨s, hdump, ms, hms, hsame, -⟩ := read_dump hr hs
  obtain rfl : "(#x  \"b\") #\"#f)\" #h".toList = s := Except.ok.inj hdump
  exact ⟨hr, hdump, ms, hms, hsame⟩

end SharpForms
