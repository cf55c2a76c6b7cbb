/-
# What is parsed is printed and parsed again

If a text parses, and no string of it holds the sharp, then its expressions are printed to a text
that parses to the same expressions (`parse_dump`): desugaring is a fixed point, also through text.

The forms that the text is read as have a spelling, and so have the expressions, seen as forms
(`Spelling.desugared`): the heads are words that are cut off as they are, and the only tag that the
walk lets pass has become a bracket.  So the printed text has no tags at all.  Nothing but blanks
drops out of it either (`Spelling.solid_printAll`), so it has no comments and no header lines.
-/
import SharpForms.Proofs.Expression.Desugared
import SharpForms.Proofs.Form.Commented
import SharpForms.Proofs.Pipeline.Joined

namespace SharpForms

/-! ## 1. What is printed is kept -/

/-- **The spelling holds all of the printed text but blanks.** -/
theorem Spelling.solid_printAll {d : Dialect} (hd : d.Printed) {flag : Bool} {ns : List Node}
    {ts : List Text} (h : Spelling d flag ns ts) :
    d.solid (Node.printAll ns) = d.solid ts.flatten := by
  have htexts : (ts.map fun t => (⟨0, ⟨t, none, none⟩⟩ : Cell)).map Cell.text = ts := by
    rw [List.map_map]
    exact List.map_id ts
  obtain ⟨ms, hms, hplaces⟩ := h.exists_forest hd htexts
  rw [← Node.printAll_of_unplaced hplaces, hms.solid_printAll hd, htexts]

/-! ## 2. Expressions have a spelling -/

/-- The heads are literals. -/
theorem literal_head {h : Text} (hh : h ∈ usualHeads) : Table.lines.dialect.byMarks.literal h := by
  have hkind : ∀ h ∈ usualHeads, Table.lines.dialect.kind h = .leaf := by decide
  rw [Dialect.byMarks_eq_byKind Dialect.lines_regular]
  exact hkind h hh

/-- They are cut off as they are. -/
theorem spelling_head {h : Text} (hh : h ∈ usualHeads) (at_ : Bounds) :
    Spelling Table.lines.dialect false [.leaf .literal h at_] [h] := by
  have hrun : ∀ h ∈ usualHeads, h ≠ [] ∧ h.all (Table.lines.dialect.inRun false) = true := by
    decide
  have hlit := literal_head hh
  obtain ⟨hne, hall⟩ := hrun h hh
  obtain ⟨c, body, rfl⟩ := List.exists_cons_of_ne_nil hne
  have hsharp : Table.lines.dialect.plays .sharp [c] = false :=
    (Dialect.plays_eq_false_iff _ .sharp [c]).2 hlit.2.2.2
  exact .literal hlit (.run (List.all_eq_true.1 hall) (by simp [hsharp]))

/-- No token is a tag. -/
def Dialect.Tagless (d : Dialect) (ts : List Text) : Prop := ∀ w ∈ ts, ¬ d.StartsSharp w

theorem Dialect.Tagless.between {d : Dialect} {t u : Text} {ts : List Text} (h : d.Tagless ts)
    (ht : ¬ d.StartsSharp t) (hu : ¬ d.StartsSharp u) : d.Tagless (t :: ts ++ [u]) :=
  List.forall_mem_append.2 ⟨List.forall_mem_cons.2 ⟨ht, h⟩, by simpa using hu⟩

/-- A string without sharps is not cut up into tags. -/
theorem Dialect.tagless_of_fitsString {d : Dialect} (hd : d.Printed) {t : Text}
    (ht : ∀ c ∈ t, d.FitsString c) : d.Tagless (d.lex true t) := by
  intro w hw hs
  obtain ⟨c, hc⟩ := hd.regular.exists_mark (r := .sharp) rfl rfl
  have hcw : c ∈ w := by
    have : [c] = w.take 1 := Option.some.inj (hc.symm.trans hs)
    exact List.mem_of_mem_take (this ▸ List.mem_cons_self)
  have hct : c ∈ (d.lex true t).flatten := List.mem_flatten.2 ⟨w, hw, hcw⟩
  rw [(lex_string hd.regular hd.quote ht).1] at hct
  have := (ht c hct).2.2
  rw [(d.plays_iff .sharp [c]).2 hc] at this
  cases this

/-- A call of items that have a spelling without tags has one. -/
theorem spelling_call {head : Option Text} {at_ : Bounds} {xs : List Node} {ts : List Text}
    (hhead : ∀ h ∈ head, h ∈ usualHeads)
    (hs : Spelling Table.lines.dialect false (Node.asForms xs) ts)
    (hts : Table.lines.dialect.Tagless ts) :
    ∃ us, Spelling Table.lines.dialect false (Node.asForms [.call (headed head at_ xs) at_]) us ∧
      Table.lines.dialect.Tagless us := by
  have hd := Dialect.lines_printed
  have hopen := hd.regular.not_startsSharp rfl (by simp) (hd.opener .round)
  have hclose := hd.regular.not_startsSharp rfl (by simp) (hd.closer .round)
  cases head with
  | none => exact ⟨_, .group (b := .round) hs, hts.between hopen hclose⟩
  | some h =>
    have hh := hhead h rfl
    have hword : Table.lines.dialect.Tagless (h :: ts) :=
      List.forall_mem_cons.2 ⟨(literal_head hh).2.2.2, hts⟩
    exact ⟨_, .group (b := .round) (.append (spelling_head hh at_) hs), hword.between hopen hclose⟩

/-- **What forms become has a spelling if they have one**, and no token of it is a tag. -/
theorem Spelling.desugared {ns xs : List Node} {ts : List Text} {flag : Bool}
    (h : Spelling Table.lines.dialect flag ns ts) (hflag : flag = false) (hx : Desugars ns xs) :
    ∃ us, Spelling Table.lines.dialect false (Node.asForms xs) us ∧
      Table.lines.dialect.Tagless us := by
  have hd := Dialect.lines_printed
  induction h generalizing xs with
  | empty =>
    rw [eq_of_desugars_nil hx]
    exact ⟨[], .empty, by simp [Dialect.Tagless]⟩
  | append _ _ ih ih' =>
    obtain ⟨ys, zs, hys, hzs, rfl⟩ := desugars_append_iff.1 hx
    obtain ⟨us, hus, hno⟩ := ih hflag hys
    obtain ⟨us', hus', hno'⟩ := ih' hflag hzs
    refine ⟨us ++ us', ?_, List.forall_mem_append.2 ⟨hno, hno'⟩⟩
    rw [Node.asForms_append]
    exact hus.append hus'
  | literal hl ht =>
    subst hflag
    rw [eq_of_desugars_literal hx]
    exact ⟨_, .literal hl ht, by simpa [Dialect.Tagless] using hl.2.2.2⟩
  | @string t at_ ht =>
    rw [eq_of_desugars_string hx]
    have hquote := hd.regular.not_startsSharp rfl (by simp) hd.quote
    exact ⟨_, .string ht, (Dialect.tagless_of_fitsString hd ht).between hquote hquote⟩
  | group _ ih =>
    obtain ⟨ys, hys, rfl⟩ := exists_of_desugars_group hx
    obtain ⟨us, hus, hno⟩ := ih hflag hys
    exact spelling_call mem_usualHeads hus hno
  | tag ht _ _ =>
    obtain ⟨rfl, -⟩ := exists_of_desugars_dispatch hx
    obtain ⟨-, last, hlast, hopen, -⟩ := ht
    obtain rfl : '\x7b' = last := Option.some.inj hlast
    exact absurd rfl (hopen .curly)
  | @region flag t closer ns ts at_ hl _ _ _ _ ih =>
    obtain ⟨rfl, ys, hys, rfl⟩ := exists_of_desugars_dispatch hx
    obtain ⟨last, c, hlast, rfl, -, -, hquote⟩ := Dialect.ends_of_region hd.regular hl
    obtain rfl : '\x7b' = last := Option.some.inj hlast
    obtain ⟨us, hus, hno⟩ := ih (by rw [hflag, ← hquote]; decide) hys
    exact spelling_call setHead_mem_usualHeads hus hno

/-! ## 3. Parsing -/

/-- What a text parses to by the usual rules, in two steps. -/
theorem Stage.parse_usual_eq_ok_iff {d : Dialect} {t : Text} {es : List Node} :
    (Stage.run d Rules.usual .parse (Text.units t)).result = .ok (.nodes es) ↔
      ∃ ns, (d.read (d.tokenize (Text.units t))).result = .ok ns ∧ Desugars ns es := by
  constructor
  · intro h
    obtain ⟨ns, hread, hwalk⟩ := Stage.exists_forms_of_parse h
    rw [Rules.walkAll_eq_evalAll, Rules.evalAll_usual_eq_ok_iff] at hwalk
    exact ⟨ns, hread, hwalk⟩
  · rintro ⟨ns, hread, hx⟩
    rw [← Rules.evalAll_usual_eq_ok_iff, ← Rules.walkAll_eq_evalAll] at hx
    rw [Stage.result_parse, hread]
    simp [Except.bind, Except.map, hx]

theorem parseLines_eq_ok_iff {t : Text} {es : List Node} :
    parseLines t = .ok (.nodes es) ↔
      ∃ ns, (Table.lines.dialect.read (Table.lines.dialect.tokenize (Text.units t))).result =
        .ok ns ∧ Desugars ns es :=
  Stage.parse_usual_eq_ok_iff

/-- Forms that become something are not bare: the only tag among them is that of sets. -/
theorem Desugars.stopped {ns es : List Node} (h : Desugars ns es) :
    Stopped Table.lines.dialect ns := by
  intro n hn hbare
  cases n with
  | dispatch tag items closer at_ =>
    cases closer with
    | none =>
      have hb : Table.lines.dialect.Bare tag := hbare
      rw [h.tag_eq hn] at hb
      exact absurd (hb.2 '\x7b' rfl).2 (by decide)
    | some closer => exact hbare
  | leaf | string | group | call | plain | placeholder => exact hbare

/-- **What a text parses to has a spelling without tags**, if no string holds the sharp. -/
theorem exists_spelling_of_parseLines {t : Text} {ns es : List Node}
    (hread : (Table.lines.dialect.read (Table.lines.dialect.tokenize (Text.units t))).result =
      .ok ns) (hx : Desugars ns es) (hs : Sharpless Table.lines.dialect es) :
    ∃ ts, Spelling Table.lines.dialect false (Node.asForms es) ts ∧
      Table.lines.dialect.Tagless ts := by
  have hd := Dialect.lines_printed
  have hf := Dialect.read_eq_ok_iff.1 hread
  rw [← Dialect.byMarks_eq_byKind hd.regular] at hf
  have hlexed := Dialect.lexed_lex hd.regular false t
  rw [← Dialect.map_text_tokenize hd.regular] at hlexed
  have hforms : Sharpless Table.lines.dialect ns :=
    fun text at_ hm => hs text at_ (hx.string_mem hm)
  obtain ⟨ts, hts, -⟩ :=
    hf.exists_spelling hd (ascending_number 0 _).1 unquoted_false hlexed hforms hx.stopped
  exact hts.desugared rfl hx

/-- **Printed expressions parse back to themselves.**  Let a source that spans lines parse, with no
string that holds a sharp.  Then its expressions are printed, and the printed text parses, to the
same expressions in other places: the heads that the walk has put in front are the same symbols,
and numbers are numbers again.  In the printed text no comment and no header line begins, and no
token is a tag. -/
theorem parse_dump {t : Text} {es : List Node} (ht : parseLines t = .ok (.nodes es))
    (hs : ∀ text at_, .string text at_ ∈ Node.postorderAll es → '#' ∉ text) :
    ∃ s, Node.dump es = .ok s ∧
      (∃ xs, parseLines s = .ok (.nodes xs) ∧ Node.sameAll xs es = true ∧
        Node.unplacedAll xs = Node.unplacedAll es) ∧
      (∀ t₁ t₂, s = t₁ ++ t₂ → (Table.lines.dialect.scanned t₁).phase ≠ .comment) ∧
      ∀ tok ∈ Table.lines.dialect.tokenize (Text.units s),
        ¬ Table.lines.dialect.StartsSharp tok.text := by
  have hd := Dialect.lines_printed
  obtain ⟨ns, hread, hx⟩ := parseLines_eq_ok_iff.1 ht
  obtain ⟨ts, hts, htags⟩ := exists_spelling_of_parseLines hread hx (sharpless_of_mark rfl hs)
  obtain ⟨ms, hms, hplaces⟩ := hts.read_printAll hd
  obtain ⟨xs, hxs, hsame⟩ := hx.asForms.of_unplaced hplaces
  have htokens := hts.texts_tokenize hd
  have hsolid := hts.solid_printAll hd
  rw [Node.printAll_asForms] at hms htokens hsolid
  refine ⟨Node.printAll es, ?_, ⟨xs, parseLines_eq_ok_iff.2 ⟨ms, hms, hxs⟩, ?_, hsame⟩, ?_, ?_⟩
  · refine Node.dump_eq_ok ?_
    rw [← Node.unprintableAmong?_asForms]
    exact hts.unprintable_eq_none
  · exact Node.sameAll_of_unplaced xs es hsame
  · intro t₁ t₂ heq
    refine @Dialect.phase_ne_comment _ hd.regular t₁ t₂ (Nat.le_of_eq ?_)
    rw [← heq, htokens, hsolid]
  · intro tok htok
    refine htags tok.text ?_
    rw [← htokens]
    exact List.mem_map_of_mem htok

/-- A vector with a symbol and a number, a comment, and a set with a string that holds a comment
mark: printed, they are two calls, and the comment mark is all that is left of comments. -/
theorem parse_dump_vector_and_set :
    let leaf (kind : LeafKind) (t : Text) (i char : Nat) : Node :=
      .leaf kind t ⟨some i, some i, some 1, some char⟩
    let whole : Bounds := ⟨some 0, some 3, some 1, some 1⟩
    let set : Bounds := ⟨some 4, some 8, some 2, some 1⟩
    let es : List Node :=
      [.call [.leaf .symbol "vector".toList whole, leaf .symbol ['a'] 1 2,
          leaf .number ['-', '1'] 2 4] whole,
        .call [.leaf .symbol "hash-set".toList set,
          .string ['b', ';'] ⟨some 5, some 7, some 2, some 3⟩] set]
    parseLines "[a -1];c\n#\x7b\"b;\"\x7d".toList = .ok (.nodes es) ∧
      Node.dump es = .ok "(vector a -1) (hash-set \"b;\")".toList ∧
      ∃ xs, parseLines "(vector a -1) (hash-set \"b;\")".toList = .ok (.nodes xs) ∧
        Node.sameAll xs es = true := by
  intro leaf whole set es
  let cell (i : Nat) (t : Text) (line char : Nat) : Cell := ⟨i, ⟨t, some line, some char⟩⟩
  have htok : Table.lines.dialect.tokenize
      (Text.units "[a -1];c\n#\x7b\"b;\"\x7d".toList) =
      [⟨['['], some 1, some 1⟩, ⟨['a'], some 1, some 2⟩, ⟨['-', '1'], some 1, some 4⟩,
        ⟨[']'], some 1, some 6⟩, ⟨['#', '\x7b'], some 2, some 1⟩, ⟨['"'], some 2, some 3⟩,
        ⟨['b', ';'], some 2, some 4⟩, ⟨['"'], some 2, some 6⟩, ⟨['\x7d'], some 2, some 7⟩] := by
    decide
  have ha : Forest Table.lines.dialect.byKind _ _ :=
    @Forest.literal _ (cell 1 ['a'] 1 2) (by decide : Table.lines.dialect.kind ['a'] = .leaf)
  have hone : Forest Table.lines.dialect.byKind _ _ :=
    @Forest.literal _ (cell 2 ['-', '1'] 1 4)
      (by decide : Table.lines.dialect.kind ['-', '1'] = .leaf)
  have hvector : Forest Table.lines.dialect.byKind _ _ :=
    @Forest.group _ .square (cell 0 ['['] 1 1) (cell 3 [']'] 1 6) _ _
      (by decide : Table.lines.dialect.kind ['['] = .opener .square) (ha.append hone)
      (by decide : Table.lines.dialect.kind [']'] = .closer .square)
  have hb : Forest Table.lines.dialect.byKind _ _ :=
    @Forest.string _ (cell 5 ['"'] 2 3) (cell 7 ['"'] 2 6) [cell 6 ['b', ';'] 2 4]
      (by decide : Table.lines.dialect.kind ['"'] = .quote)
      (by decide : ∀ x ∈ [cell 6 ['b', ';'] 2 4], Table.lines.dialect.kind x.text ≠ .quote)
      (by decide : Table.lines.dialect.kind ['"'] = .quote)
  have hset : Forest Table.lines.dialect.byKind _ _ :=
    @Forest.region _ (cell 4 ['#', '\x7b'] 2 1) (cell 8 ['\x7d'] 2 7) _ _
      ⟨by decide, '\x7b', rfl, by decide⟩ (by decide) hb
  have ht : parseLines "[a -1];c\n#\x7b\"b;\"\x7d".toList = .ok (.nodes es) := by
    have hx : Desugars _ es :=
      .append (.group (b := .square) (.append (.literal (t := ['a']) (by decide))
        (.literal (t := ['-', '1']) (by decide)))) (@Desugars.set _ _ (some ['\x7d']) set .string)
    refine parseLines_eq_ok_iff.2 ⟨_, ?_, hx⟩
    rw [htok]
    exact Dialect.read_eq_ok_iff.2 (hvector.append hset)
  have hs : ∀ text at_, .string text at_ ∈ Node.postorderAll es → '#' ∉ text := by
    intro text at_ hm
    obtain ⟨rfl, -⟩ : text = ['b', ';'] ∧ at_ = ⟨some 5, some 7, some 2, some 3⟩ := by
      simpa [es, leaf, Node.postorderAll, Node.postorder] using hm
    decide
  obtain ⟨s, hdump, ⟨xs, hxs, hsame, -⟩, -⟩ := parse_dump ht hs
  obtain rfl : "(vector a -1) (hash-set \"b;\")".toList = s := Except.ok.inj hdump
  exact ⟨ht, hdump, xs, hxs, hsame⟩

end SharpForms
