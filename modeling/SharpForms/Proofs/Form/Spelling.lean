/-
# How printed forms are spelled

`Spelling` relates forms to the tokens that their printed text is cut into.  Its rules follow the
printer: literals and tags are one token each, a group is its brackets around its items, a region
its tag and its closer, and a string is whatever its characters are cut into between two quotes.

Two facts make up reading back.

* `Spelling.lex_append`: the printed text, in front of anything that stops a run, is cut into
  these tokens.
* `Spelling.exists_forest`: tokens with these texts, wherever they stand, make up the forms again,
  in other places.

Both ask that the dialect gives the brackets, the quote and the blank the shape that they are
printed in (`Dialect.Printed`).  Bare tags are left out: they can be printed only at the very end
(`Spelling.lex_concat_bare`).
-/
import SharpForms.Node.Printed
import SharpForms.Proofs.Form.Grammar
import SharpForms.Proofs.Token.Lexeme
import SharpForms.Proofs.Unplaced

namespace SharpForms

/-! ## 1. Dialects in printed shape -/

/-- The brackets, the quote and a blank are those that nodes are printed with. -/
structure Dialect.Printed (d : Dialect) : Prop where
  regular : d.Regular
  opener : ∀ b, d.mark (.opener b) = some [b.openChar]
  closer : ∀ b, d.mark (.closer b) = some [b.closeChar]
  quote : d.mark .quote = some ['"']
  space : d.isBlank [' '] = true

theorem Dialect.plain_printed : Table.plain.dialect.Printed :=
  ⟨plain_regular, fun b => by cases b <;> rfl, fun b => by cases b <;> rfl, rfl, by decide⟩

theorem Dialect.lines_printed : Table.lines.dialect.Printed :=
  ⟨lines_regular, fun b => by cases b <;> rfl, fun b => by cases b <;> rfl, rfl, by decide⟩

namespace Dialect

variable {d : Dialect} {flag : Bool} {t : Text}

theorem isDelimiter_of_opener {b : Bracket} (h : d.mark (.opener b) = some t) :
    d.isDelimiter t = true :=
  (d.isDelimiter_iff t).2 (.inl ⟨b, h⟩)

theorem isDelimiter_of_closer {b : Bracket} (h : d.mark (.closer b) = some t) :
    d.isDelimiter t = true :=
  (d.isDelimiter_iff t).2 (.inr (.inl ⟨b, h⟩))

theorem isDelimiter_of_quote (h : d.mark .quote = some t) : d.isDelimiter t = true :=
  (d.isDelimiter_iff t).2 (.inr (.inr h))

/-- A literal is no delimiter. -/
theorem isDelimiter_of_literal (h : d.byMarks.literal t) : d.isDelimiter t = false := by
  obtain ⟨ho, hc, hq, -⟩ := h
  rw [Bool.eq_false_iff, Ne, isDelimiter_iff]
  rintro (⟨b, hm⟩ | ⟨b, hm⟩ | hm)
  · exact ho b hm
  · exact hc b hm
  · exact hq hm

/-- A bracket is a token by itself and leaves the string flag alone. -/
theorem lex_bracket (h : d.Regular) {r : Role} {c : Char} (hm : d.mark r = some [c])
    (hr : r.isNotation = true) (hq : r ≠ .quote) (hd : d.isDelimiter [c] = true) :
    d.lex flag (c :: t) = [c] :: d.lex flag t := by
  rw [lex_delimiter h hd, h.not_plays hr rfl hq hm, Bool.xor_false]

/-- A tag with a region ends in a delimiter, and so does the region; both are the quote or
neither is. -/
theorem ends_of_region (h : d.Regular) {closer : Text} (hl : d.byMarks.region t closer) :
    ∃ last c, t.getLast? = some last ∧ closer = [c] ∧ d.isDelimiter [last] = true ∧
      d.isDelimiter [c] = true ∧ d.plays .quote [last] = d.plays .quote [c] := by
  obtain ⟨-, last, hlast, ⟨hq, hc⟩ | ⟨b, ho, hc⟩⟩ := hl
  · obtain rfl : [last] = closer := Option.some.inj (hq.symm.trans hc)
    have hd := isDelimiter_of_quote hq
    exact ⟨last, last, hlast, rfl, hd, hd, rfl⟩
  · obtain ⟨c, rfl⟩ := h.single _ _ rfl hc
    refine ⟨last, c, hlast, rfl, isDelimiter_of_opener ho, isDelimiter_of_closer hc, ?_⟩
    rw [h.not_plays rfl rfl (by simp) ho, h.not_plays rfl rfl (by simp) hc]

/-- Behind a region the string flag is what it was in front of it. -/
theorem flag_behind_region (hflag : d.mark .quote = some t → flag = false) :
    ((flag || d.plays .quote t) ^^ d.plays .quote t) = flag := by
  cases hq : d.plays .quote t with
  | false => simp
  | true => simp [hflag ((d.plays_iff _ _).1 hq)]

end Dialect

/-! ## 2. Spellings -/

/-- Printed where the string flag is this, the forms are cut into tokens with these texts. -/
inductive Spelling (d : Dialect) : Bool → List Node → List Text → Prop
  | empty {flag : Bool} : Spelling d flag [] []
  | append {flag : Bool} {ns ns' : List Node} {ts ts' : List Text} :
      Spelling d flag ns ts → Spelling d flag ns' ts' → Spelling d flag (ns ++ ns') (ts ++ ts')
  | literal {flag : Bool} {t : Text} {at_ : Bounds} :
      d.byMarks.literal t → d.Lexeme flag t → Spelling d flag [.leaf .literal t at_] [t]
  | group {flag : Bool} {b : Bracket} {ns : List Node} {ts : List Text} {at_ : Bounds} :
      Spelling d flag ns ts →
        Spelling d flag [.group b ns at_] ([b.openChar] :: ts ++ [[b.closeChar]])
  | string {t : Text} {at_ : Bounds} :
      (∀ c ∈ t, d.FitsString c) →
        Spelling d false [.string t at_] (['"'] :: d.lex true t ++ [['"']])
  | tag {flag : Bool} {t : Text} {at_ : Bounds} :
      d.byMarks.tag t → d.Lexeme flag t → ¬ d.Bare t →
        Spelling d flag [.dispatch t [] none at_] [t]
  | region {flag : Bool} {t closer : Text} {ns : List Node} {ts : List Text} {at_ : Bounds} :
      d.byMarks.region t closer → d.Lexeme flag t →
        (d.mark .quote = some closer → flag = false) →
        Spelling d (flag || d.plays .quote closer) ns ts → (∀ u ∈ ts, u ≠ closer) →
        Spelling d flag [.dispatch t ns (some closer) at_] (t :: ts ++ [closer])

theorem Node.printAll_cons_cons (n m : Node) (ms : List Node) :
    printAll (n :: m :: ms) = print n ++ ' ' :: printAll (m :: ms) := by
  rw [printAll]
  simp

/-- Printing goes forest by forest, with a blank between two that are not empty. -/
theorem Node.printAll_append {ns ms : List Node} (hns : ns ≠ []) (hms : ms ≠ []) :
    printAll (ns ++ ms) = printAll ns ++ ' ' :: printAll ms := by
  induction ns with
  | nil => exact absurd rfl hns
  | cons n ns ih =>
    cases ns with
    | nil =>
      obtain ⟨m, ms, rfl⟩ := List.exists_cons_of_ne_nil hms
      exact printAll_cons_cons n m ms
    | cons n' ns =>
      rw [List.cons_append, List.cons_append, printAll_cons_cons, ← List.cons_append,
        ih (List.cons_ne_nil n' ns), printAll_cons_cons, List.append_assoc, List.cons_append]

namespace Spelling

variable {d : Dialect} {flag : Bool} {ns : List Node} {ts : List Text} {rest : Text}

/-- No forms, no tokens. -/
theorem tokens_eq_nil (h : Spelling d flag ns ts) (hns : ns = []) : ts = [] := by
  induction h with
  | empty => rfl
  | append _ _ ih ih' =>
    obtain ⟨h1, h2⟩ := List.append_eq_nil_iff.1 hns
    rw [ih h1, ih' h2]
    rfl
  | literal | group | string | tag | region => simp at hns

/-! ## 3. The printed text is cut into the spelling -/

/-- **Printed forms are cut into their spelling**, in front of anything that stops a run. -/
theorem lex_append (hd : d.Printed) (h : Spelling d flag ns ts) (hrest : d.Stops flag rest) :
    d.lex flag (Node.printAll ns ++ rest) = ts ++ d.lex flag rest := by
  have hreg := hd.regular
  have hstop : ∀ {flag : Bool} {c : Char} {t : Text},
      d.isBlank [c] = true ∨ d.isDelimiter [c] = true → d.Stops flag (c :: t) :=
    fun hc => Dialect.stops_cons.2 (Dialect.not_inRun hc)
  induction h generalizing rest with
  | empty => rfl
  | @append flag ns ns' ts ts' h h' ih ih' =>
    by_cases hns : ns = []
    · rw [hns, h.tokens_eq_nil hns]
      exact ih' hrest
    by_cases hns' : ns' = []
    · rw [hns', h'.tokens_eq_nil hns', List.append_nil, List.append_nil]
      exact ih hrest
    · rw [Node.printAll_append hns hns', List.append_assoc, List.cons_append,
        ih (hstop (.inl hd.space)), Dialect.lex_blank hd.space, ih' hrest, List.append_assoc]
  | literal hl ht =>
    exact Dialect.lex_append_of_literal hreg ht (Dialect.isDelimiter_of_literal hl) hl.2.2.2 hrest
  | @group flag b ns ts at_ _ ih =>
    have ho := Dialect.isDelimiter_of_opener (hd.opener b)
    have hc := Dialect.isDelimiter_of_closer (hd.closer b)
    have hprint : Node.printAll [.group b ns at_] ++ rest =
        b.openChar :: (Node.printAll ns ++ b.closeChar :: rest) := by
      simp [Node.printAll, Node.print]
    rw [hprint, Dialect.lex_bracket hreg (hd.opener b) rfl (by simp) ho, ih (hstop (.inr hc)),
      Dialect.lex_bracket hreg (hd.closer b) rfl (by simp) hc]
    simp
  | @string t at_ ht =>
    have hprint : Node.printAll [.string t at_] ++ rest = '"' :: (t ++ '"' :: rest) := by
      simp [Node.printAll, Node.print]
    have hstring := (Dialect.lex_string hreg hd.quote ht).2.2 rest
    rw [hprint, Dialect.lex_quote hreg hd.quote, Bool.not_false, hstring]
    simp
  | @tag flag t at_ hl ht hbare =>
    obtain ⟨hs, last, hlast, -, hq⟩ := hl
    have hquote : d.plays .quote [last] = false := (d.plays_eq_false_iff .quote [last]).2 hq
    have := Dialect.lex_append_of_tag hreg ht hs hbare rest
    rw [hreg.inStringAfter_of_startsSharp hs hlast, hquote, Bool.or_false] at this
    exact this
  | @region flag t closer ns ts at_ hl ht hflag _ _ ih =>
    obtain ⟨last, c, hlast, rfl, hd1, hd2, hquote⟩ := Dialect.ends_of_region hreg hl
    have hbare : ¬ d.Bare t := fun h => by simpa [hd1] using h.2 last hlast
    have hprint : Node.printAll [.dispatch t ns (some [c]) at_] ++ rest =
        t ++ (Node.printAll ns ++ c :: rest) := by
      simp [Node.printAll, Node.print]
    rw [hprint, Dialect.lex_append_of_tag hreg ht hl.1 hbare,
      hreg.inStringAfter_of_startsSharp hl.1 hlast, hquote, ih (hstop (.inr hd2)),
      Dialect.lex_delimiter hreg hd2, Dialect.flag_behind_region hflag]
    simp

/-- A tag that nothing has stopped is cut off behind them, if the text ends there. -/
theorem lex_concat_bare (hd : d.Printed) (h : Spelling d false ns ts) {t : Text} {at_ : Bounds}
    (ht : d.Lexeme false t) (hbare : d.Bare t) :
    d.lex false (Node.printAll (ns ++ [.dispatch t [] none at_])) = ts ++ [t] := by
  have hlex := Dialect.lex_of_bare ht hbare
  by_cases hns : ns = []
  · rw [hns, h.tokens_eq_nil hns]
    exact hlex
  · have hstop : d.Stops false (' ' :: t) :=
      Dialect.stops_cons.2 (Dialect.not_inRun (.inl hd.space))
    have hprint : Node.printAll [.dispatch t [] none at_] = t := rfl
    rw [Node.printAll_append hns (by simp), hprint, h.lex_append hd hstop,
      Dialect.lex_blank hd.space, hlex]

/-- What has a spelling can be printed. -/
theorem unprintable_eq_none (h : Spelling d flag ns ts) : Node.unprintableAmong? ns = none := by
  induction h with
  | empty | literal | string | tag => rfl
  | append _ _ ih ih' =>
    rw [Node.unprintableAmong?_eq_none_iff] at ih ih' ⊢
    intro n hn
    rcases List.mem_append.1 hn with hn | hn
    · exact ih n hn
    · exact ih' n hn
  | group _ ih | region _ _ _ _ _ ih =>
    simp [Node.unprintableAmong?, Node.unprintable?, ih]

/-! ## 4. The spelling makes up the forms -/

/-- Cells whose texts have a first and a last one. -/
theorem exists_between {cs : List Cell} {t u : Text} (h : cs.map Cell.text = t :: ts ++ [u]) :
    ∃ o mid c, cs = o :: mid ++ [c] ∧ o.text = t ∧ mid.map Cell.text = ts ∧ c.text = u := by
  obtain ⟨front, back, rfl, hfront, hback⟩ := List.map_eq_append_iff.1 h
  obtain ⟨o, mid, rfl, ho, hmid⟩ := List.map_eq_cons_iff.1 hfront
  obtain ⟨c, rfl, hc⟩ := List.map_eq_singleton_iff.1 hback
  exact ⟨o, mid, c, rfl, ho, hmid, hc⟩

/-- **Tokens with the texts of the spelling make up the forms again**, in other places. -/
theorem exists_forest (hd : d.Printed) (h : Spelling d flag ns ts) {cs : List Cell}
    (hcs : cs.map Cell.text = ts) :
    ∃ ms, Forest d.byMarks cs ms ∧ Node.unplacedAll ms = Node.unplacedAll ns := by
  induction h generalizing cs with
  | empty =>
    obtain rfl := List.map_eq_nil_iff.1 hcs
    exact ⟨[], .empty, rfl⟩
  | append _ _ ih ih' =>
    obtain ⟨cs₁, cs₂, rfl, h1, h2⟩ := List.map_eq_append_iff.1 hcs
    obtain ⟨ms, hms, hsame⟩ := ih h1
    obtain ⟨ms', hms', hsame'⟩ := ih' h2
    refine ⟨ms ++ ms', hms.append hms', ?_⟩
    rw [Node.unplacedAll_append, Node.unplacedAll_append, hsame, hsame']
  | literal hl _ =>
    obtain ⟨c, rfl, rfl⟩ := List.map_eq_singleton_iff.1 hcs
    exact ⟨_, .literal hl, rfl⟩
  | tag ht _ _ =>
    obtain ⟨c, rfl, rfl⟩ := List.map_eq_singleton_iff.1 hcs
    exact ⟨_, .tag ht, rfl⟩
  | @group flag b ns ts at_ _ ih =>
    obtain ⟨o, mid, c, rfl, ho, hmid, hc⟩ := exists_between hcs
    obtain ⟨ms, hms, hsame⟩ := ih hmid
    have hopen : d.byMarks.opener b o.text := by rw [ho]; exact hd.opener b
    have hclose : d.byMarks.closer b c.text := by rw [hc]; exact hd.closer b
    refine ⟨_, .group hopen hms hclose, ?_⟩
    simp [Node.unplacedAll, Node.unplaced, hsame]
  | @string t at_ ht =>
    obtain ⟨o, mid, c, rfl, ho, hmid, hc⟩ := exists_between hcs
    obtain ⟨hflat, hquote, -⟩ := Dialect.lex_string hd.regular hd.quote ht
    have hopen : d.byMarks.quote o.text := by rw [ho]; exact hd.quote
    have hclose : d.byMarks.quote c.text := by rw [hc]; exact hd.quote
    have hinside : ∀ x ∈ mid, ¬ d.byMarks.quote x.text := by
      intro x hx
      refine hquote x.text ?_
      rw [← hmid]
      exact List.mem_map_of_mem hx
    refine ⟨_, .string hopen hinside hclose, ?_⟩
    simp [Node.unplacedAll, Node.unplaced, hmid, hflat]
  | @region flag t closer ns ts at_ hl _ _ _ hinside ih =>
    obtain ⟨o, mid, c, rfl, ho, hmid, hc⟩ := exists_between hcs
    obtain ⟨ms, hms, hsame⟩ := ih hmid
    have htag : d.byMarks.region o.text c.text := by rw [ho, hc]; exact hl
    have hne : ∀ x ∈ mid, x.text ≠ c.text := by
      intro x hx
      rw [hc]
      refine hinside x.text ?_
      rw [← hmid]
      exact List.mem_map_of_mem hx
    refine ⟨_, .region htag hne hms, ?_⟩
    simp [Node.unplacedAll, Node.unplaced, hsame, ho, hc]

end Spelling
end SharpForms
