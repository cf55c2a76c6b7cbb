/-
# The first defect of a token list

What the reader says about a token list that does not read: its message names a token of the list
by number and place, and calls it what it is (`Dialect.Reports`).

Of a list without tags it can be said which defect it is.  The brackets and quotes that are open
behind some tokens are a stack, and one token more pushes one, pops one, leaves it alone, or is a
closer that does not fit the innermost one (`Dialect.advance`).  The reader does just that
(`result_map_of_tagless`), although it takes the tokens of a string in one piece:

* a closer that does not fit stays at fault whatever follows (`readFrom_append_of_stray`), and
  without one the open brackets and quotes can be closed; so it is the first token behind which the
  list cannot be completed (`completable_iff`);
* where all closers fit, what is missing is the closer of the innermost one that is open.
-/
import SharpForms.Proofs.Dialect.Distinct
import SharpForms.Proofs.Form.Tiling

namespace SharpForms

/-! ## 1. What a message says -/

/-- A text as messages show it. -/
def Text.shown (t : Text) : String := String.ofList t.quoted

/-- The place of a numbered token, as messages name it. -/
def Token.whence (i : Nat) (tok : Token) : String :=
  String.ofList (Place.text ⟨some i, tok.line, tok.char⟩)

open ReadError (surroundings) in
/-- The message names the token with this number, and the token is what the message calls it. -/
inductive Dialect.Reports (d : Dialect) (i : Nat) (tok : Token) : String → Prop
  | unclosedGroup {b : Bracket} : d.mark (.opener b) = some tok.text →
      d.Reports i tok
        (s!"read error: unmatched open {b.groupName} {tok.text.shown} " ++ tok.whence i)
  | unclosedString : d.mark .quote = some tok.text →
      d.Reports i tok ("read error: unmatched open string " ++ tok.whence i)
  | unclosedRegion {closer : Text} : d.byMarks.region tok.text closer →
      d.Reports i tok
        (s!"read error: unmatched dispatch closing token {closer.shown} for {tok.text.shown} " ++
          tok.whence i)
  | strayCloser {b : Bracket} {within : Option Bracket} : d.mark (.closer b) = some tok.text →
      within ≠ some b →
      d.Reports i tok
        (s!"read error: unmatched closing token {tok.text.shown} in {surroundings within} " ++
          tok.whence i)

namespace Dialect

variable {d : Dialect}

/-- Whatever the marks are, a tag whose region is read as such is one by the marks. -/
theorem region_of_byKind {t closer : Text} (h : d.byKind.region t closer) :
    d.byMarks.region t closer := by
  obtain ⟨hk, last, hlast, hr⟩ := h
  refine ⟨(d.kind_eq_sharp_iff.1 hk).2.2, last, hlast, ?_⟩
  by_cases hq : d.mark .quote = some [last]
  · rw [d.regionCloser?_of_quote hq] at hr
    exact .inl ⟨hq, hq.trans hr⟩
  · rw [d.regionCloser?_of_ne_quote hq] at hr
    obtain ⟨b, hb, hc⟩ := Option.bind_eq_some_iff.1 hr
    exact .inr ⟨b, d.mark_of_openerOf? hb, hc⟩

/-- **A reading that fails names a token of the list**, where it stands and as what it is. -/
theorem reports_of_read (h : d.Distinct) {ts : List Token} {e : ReadError}
    (he : (d.read ts).result = .error e) :
    ∃ i tok, ts[i]? = some tok ∧ e.cell = ⟨i, tok⟩ ∧ d.Reports i tok e.message := by
  obtain ⟨hfits, hmem⟩ := blamed_of_read he
  obtain ⟨i, hi, htok⟩ := Cell.getElem?_of_mem_number hmem
  rw [Nat.zero_add] at hi
  subst hi
  refine ⟨_, _, htok, rfl, ?_⟩
  cases e with
  | unclosedGroup b o => exact .unclosedGroup (d.mark_of_openerOf? (d.kind_eq_opener_iff.1 hfits))
  | unclosedString q => exact .unclosedString (d.kind_eq_quote_iff.1 hfits).2
  | unclosedRegion closer t => exact .unclosedRegion (region_of_byKind hfits)
  | strayCloser within c =>
    obtain ⟨b, hk, hwithin⟩ := hfits
    exact .strayCloser (d.mark_of_closerOf? (d.kind_eq_closer_iff.1 hk).2.2.2) hwithin
  | emptyTag t =>
    exact absurd hfits.2 (h.ne_nil_of_startsSharp (d.kind_eq_sharp_iff.1 hfits.1).2.2)

end Dialect

/-! ## 2. Open brackets and quotes -/

/-- A bracket or a quote that is open, with the token that opened it. -/
inductive Opening where
  | group (bracket : Bracket) (opener : Cell)
  | string (quote : Cell)
  deriving DecidableEq, Repr

namespace Opening

/-- What is at fault if it stays open. -/
def defect : Opening → ReadError
  | group b o => .unclosedGroup b o
  | string q => .unclosedString q

/-- The text that closes it. -/
def closer (d : Dialect) : Opening → Option Text
  | group b _ => d.mark (.closer b)
  | string _ => d.mark .quote

/-- At the end of the tokens nothing may be open. -/
def finish : List Opening → Except ReadError Unit
  | [] => .ok ()
  | o :: _ => .error o.defect

end Opening

/-- An open level is an open bracket. -/
def Level.opening (l : Level) : Opening := .group l.bracket l.opener

namespace Dialect

/-- What a token that is no tag does to the open brackets and quotes, the innermost one first.
Inside a string only the quote counts; elsewhere a closer has to fit the innermost bracket. -/
def advance (d : Dialect) (os : List Opening) (c : Cell) : Except ReadError (List Opening) :=
  match os, d.kind c.text with
  | .string _ :: os, .quote => .ok os
  | .string q :: os, _ => .ok (.string q :: os)
  | os, .opener b => .ok (.group b c :: os)
  | os, .quote => .ok (.string c :: os)
  | .group b _ :: os, .closer b' =>
    if b = b' then .ok os else .error (.strayCloser (some b) c)
  | [], .closer _ => .error (.strayCloser none c)
  | os, _ => .ok os

/-- What is open behind the tokens of a list. -/
def openings (d : Dialect) (ts : List Token) : Except ReadError (List Opening) :=
  (Cell.number 0 ts).foldlM d.advance []

variable {d : Dialect} {os os' : List Opening} {c : Cell} {cs : List Cell} {e : ReadError}
  {levels : List Level}

theorem foldlM_cons_ok (h : d.advance os c = .ok os') :
    (c :: cs).foldlM d.advance os = cs.foldlM d.advance os' := by
  rw [List.foldlM_cons, h]
  rfl

theorem foldlM_cons_error (h : d.advance os c = .error e) :
    (c :: cs).foldlM d.advance os = .error e := by
  rw [List.foldlM_cons, h]
  rfl

theorem foldlM_append_ok {us : List Cell} (h : cs.foldlM d.advance os = .ok os') :
    (cs ++ us).foldlM d.advance os = us.foldlM d.advance os' := by
  rw [List.foldlM_append, h]
  rfl

theorem advance_opener {b : Bracket} (hk : d.kind c.text = .opener b) :
    d.advance (levels.map Level.opening) c = .ok (.group b c :: levels.map Level.opening) := by
  cases levels <;> simp [advance, hk, Level.opening]

theorem advance_quote (hk : d.kind c.text = .quote) :
    d.advance (levels.map Level.opening) c = .ok (.string c :: levels.map Level.opening) := by
  cases levels <;> simp [advance, hk, Level.opening]

theorem advance_literal (hk : d.kind c.text = .leaf) :
    d.advance (levels.map Level.opening) c = .ok (levels.map Level.opening) := by
  cases levels <;> simp [advance, hk, Level.opening]

/-- In a string nothing but the quote counts. -/
theorem foldlM_inside {q : Cell} (hcs : ∀ x ∈ cs, d.kind x.text ≠ .quote) :
    cs.foldlM d.advance (.string q :: os) = .ok (.string q :: os) := by
  induction cs with
  | nil => rfl
  | cons x cs ih =>
    rw [List.forall_mem_cons] at hcs
    have hx : d.advance (.string q :: os) x = .ok (.string q :: os) := by
      cases hk : d.kind x.text <;> simp_all [advance]
    rw [foldlM_cons_ok hx]
    exact ih hcs.2

/-- A token that cannot stand where it stands is a closer. -/
theorem stray_of_advance (h : d.advance os c = .error e) : ∃ within, e = .strayCloser within c := by
  unfold advance at h
  split at h
  · cases h
  · cases h
  · cases h
  · cases h
  · split at h
    · cases h
    · exact ⟨_, (Except.error.inj h).symm⟩
  · exact ⟨_, (Except.error.inj h).symm⟩
  · cases h

/-! ### Along a token list -/

variable {ts us : List Token}

/-- One token more is one step more. -/
theorem openings_take_succ {i : Nat} (hi : i < ts.length) :
    d.openings (ts.take (i + 1)) = (d.openings (ts.take i)).bind (d.advance · ⟨i, ts[i]⟩) := by
  have hlen : 0 + (ts.take i).length = i := by
    rw [List.length_take, Nat.min_eq_left (Nat.le_of_lt hi), Nat.zero_add]
  rw [openings, List.take_succ_eq_append_getElem hi, Cell.number_append, hlen, openings]
  cases hos : (Cell.number 0 (ts.take i)).foldlM d.advance [] with
  | error e =>
    rw [List.foldlM_append, hos]
    rfl
  | ok os =>
    rw [foldlM_append_ok hos, Cell.number_cons, Cell.number_nil]
    cases hc : d.advance os ⟨i, ts[i]⟩ with
    | error e => exact (foldlM_cons_error hc).trans hc.symm
    | ok os' => exact (foldlM_cons_ok hc).trans hc.symm

/-- If the tokens cannot stand like that, one of them is the first that cannot. -/
theorem exists_first_stray (h : d.openings ts = .error e) :
    ∃ i, ∃ hi : i < ts.length, ∃ os, d.openings (ts.take i) = .ok os ∧
      d.advance os ⟨i, ts[i]⟩ = .error e := by
  have upTo : ∀ k ≤ ts.length, d.openings (ts.take k) = .error e →
      ∃ i, ∃ hi : i < ts.length, ∃ os, d.openings (ts.take i) = .ok os ∧
        d.advance os ⟨i, ts[i]⟩ = .error e := by
    intro k hk he
    induction k with
    | zero => cases he
    | succ k ih =>
      rw [openings_take_succ hk] at he
      cases hos : d.openings (ts.take k) with
      | error e' =>
        rw [hos] at he
        exact ih (Nat.le_of_succ_le hk) (hos.trans he)
      | ok os =>
        rw [hos] at he
        exact ⟨k, hk, os, hos, he⟩
  exact upTo ts.length (Nat.le_refl _) (by rwa [List.take_length])

theorem openings_append_error (h : d.openings ts = .error e) (us : List Token) :
    d.openings (ts ++ us) = .error e := by
  rw [openings] at h
  rw [openings, Cell.number_append, List.foldlM_append, h]
  rfl

/-! ## 3. The reader keeps track of them -/

/-- **Without tags the reader fails as the open brackets and quotes say**, inside any open
levels. -/
theorem result_map_of_tagless {found : List Node} (hcs : ∀ c ∈ cs, d.kind c.text ≠ .sharp) :
    ((d.readFrom levels found cs).result.map fun _ => ()) =
      (cs.foldlM d.advance (levels.map Level.opening)).bind Opening.finish := by
  induction levels, found, cs using d.readFrom_induction with
  | done found => rw [readFrom_done]; rfl
  | unclosedGroup l levels found => rw [readFrom_unclosedGroup]; rfl
  | opener levels found c cs b hk ih =>
    rw [readFrom_opener hk, foldlM_cons_ok (advance_opener hk)]
    exact ih (List.forall_mem_cons.1 hcs).2
  | strayTop found c cs b hk =>
    have hc : d.advance [] c = .error (.strayCloser none c) := by simp [advance, hk]
    rw [readFrom_strayTop hk, List.map_nil, foldlM_cons_error hc]
    rfl
  | closer l levels found c cs hk ih =>
    have hc : d.advance ((l :: levels).map Level.opening) c = .ok (levels.map Level.opening) := by
      simp [advance, hk, Level.opening]
    rw [readFrom_closer hk, Traced.result_emitForm, foldlM_cons_ok hc]
    exact ih (List.forall_mem_cons.1 hcs).2
  | strayInside l levels found c cs b hk hb =>
    have hc : d.advance ((l :: levels).map Level.opening) c =
        .error (.strayCloser (some l.bracket) c) := by
      simp [advance, hk, Level.opening, hb]
    rw [readFrom_strayInside hk hb, foldlM_cons_error hc]
    rfl
  | literal levels found c cs hk ih =>
    rw [readFrom_literal hk, Traced.result_emitForm, foldlM_cons_ok (advance_literal hk)]
    exact ih (List.forall_mem_cons.1 hcs).2
  | unclosedString levels found c cs hk hcut =>
    have hinside : ∀ x ∈ cs, d.kind x.text ≠ .quote := by
      intro x hx hq
      exact cutAt?_eq_none_iff.1 hcut x hx (text_eq_of_kind_quote hk hq)
    rw [readFrom_unclosedString hk hcut, foldlM_cons_ok (advance_quote hk), foldlM_inside hinside]
    rfl
  | string levels found c cs inside last rest hk hcut ih =>
    obtain ⟨rfl, hlast, hfirst⟩ := cutAt?_eq_some_iff.1 hcut
    have hinside : ∀ x ∈ inside, d.kind x.text ≠ .quote := by
      intro x hx hq
      exact hfirst x hx (text_eq_of_kind_quote hk hq)
    have hclose : d.advance (.string c :: levels.map Level.opening) last =
        .ok (levels.map Level.opening) := by
      simp [advance, hlast, hk]
    rw [readFrom_string hk hcut, Traced.result_emitForm, foldlM_cons_ok (advance_quote hk),
      foldlM_append_ok (foldlM_inside hinside), foldlM_cons_ok hclose]
    refine ih ?_
    intro x hx
    exact hcs x (by simp [hx])
  | emptyTag levels found c cs hk | tag levels found c cs e hk
  | unclosedRegion levels found c cs e closer hk
  | region levels found c cs e closer inside last rest hk =>
    exact absurd hk (hcs c List.mem_cons_self)

theorem kind_ne_sharp_of_tagless (hts : ∀ t ∈ ts, ¬ d.StartsSharp t.text) {i : Nat} :
    ∀ c ∈ Cell.number i ts, d.kind c.text ≠ .sharp := by
  intro c hc hk
  obtain ⟨j, -, ht⟩ := Cell.getElem?_of_mem_number hc
  exact hts c.token (List.mem_of_getElem? ht) (d.kind_eq_sharp_iff.1 hk).2.2

theorem read_error_iff_of_tagless (hts : ∀ t ∈ ts, ¬ d.StartsSharp t.text) :
    (d.read ts).result = .error e ↔ (d.openings ts).bind Opening.finish = .error e := by
  have heq := @result_map_of_tagless d _ [] [] (kind_ne_sharp_of_tagless (i := 0) hts)
  rw [openings, ← List.map_nil (f := Level.opening), ← heq, read]
  cases (d.readFrom [] [] (Cell.number 0 ts)).result <;> simp [Except.map]

theorem read_ok_iff_of_tagless (hts : ∀ t ∈ ts, ¬ d.StartsSharp t.text) :
    (∃ ns, (d.read ts).result = .ok ns) ↔ (d.openings ts).bind Opening.finish = .ok () := by
  have heq := @result_map_of_tagless d _ [] [] (kind_ne_sharp_of_tagless (i := 0) hts)
  rw [openings, ← List.map_nil (f := Level.opening), ← heq, read]
  cases (d.readFrom [] [] (Cell.number 0 ts)).result <;> simp [Except.map]

/-- A closer is at fault only where it does not fit what is open. -/
theorem openings_of_stray (hts : ∀ t ∈ ts, ¬ d.StartsSharp t.text) {within : Option Bracket}
    (h : (d.read ts).result = .error (.strayCloser within c)) :
    d.openings ts = .error (.strayCloser within c) := by
  rw [read_error_iff_of_tagless hts] at h
  cases hopen : d.openings ts with
  | error e =>
    rw [hopen] at h
    exact congrArg _ (Except.error.inj h)
  | ok os =>
    rw [hopen] at h
    cases os with
    | nil => cases h
    | cons o os => cases o <;> cases h

/-! ## 4. Lists that can be completed -/

/-- Some tokens behind the list make it read. -/
def Completable (d : Dialect) (ts : List Token) : Prop :=
  ∃ us ns, (d.read (ts ++ us)).result = .ok ns

/-- The closers of what is open, the innermost first, close all of it. -/
theorem foldlM_closers (h : d.Distinct) {i : Nat}
    (hus : us.map (fun u => some u.text) = os.map (Opening.closer d)) :
    (Cell.number i us).foldlM d.advance os = .ok [] := by
  induction os generalizing us i with
  | nil =>
    obtain rfl : us = [] := by simpa using hus
    rfl
  | cons o os ih =>
    cases us with
    | nil => simp at hus
    | cons u us =>
      rw [List.map_cons, List.map_cons, List.cons.injEq] at hus
      have hu : d.advance (o :: os) ⟨i, u⟩ = .ok os := by
        cases o with
        | group b _ => simp [advance, Cell.text, h.kind_of_closer hus.1.symm]
        | string _ => simp [advance, Cell.text, h.kind_of_quote hus.1.symm]
      rw [Cell.number_cons, foldlM_cons_ok hu]
      exact ih hus.2

/-- **What is open can be closed.** -/
theorem read_append_closers (h : d.Distinct) (hts : ∀ t ∈ ts, ¬ d.StartsSharp t.text)
    (hopen : d.openings ts = .ok os)
    (hus : us.map (fun u => some u.text) = os.map (Opening.closer d)) :
    ∃ ns, (d.read (ts ++ us)).result = .ok ns := by
  have htagless : ∀ t ∈ ts ++ us, ¬ d.StartsSharp t.text := by
    refine List.forall_mem_append.2 ⟨hts, ?_⟩
    intro u hu hs
    rw [← h.kind_eq_sharp_iff] at hs
    have hmem : some u.text ∈ us.map fun u => some u.text := List.mem_map_of_mem hu
    rw [hus] at hmem
    obtain ⟨o, -, ho⟩ := List.mem_map.1 hmem
    cases o with
    | group b _ => rw [h.kind_of_closer ho] at hs; cases hs
    | string _ => rw [h.kind_of_quote ho] at hs; cases hs
  rw [read_ok_iff_of_tagless htagless, openings, Cell.number_append, foldlM_append_ok hopen,
    foldlM_closers h hus]
  rfl

/-- **Without tags a list can be completed exactly if all its closers fit.** -/
theorem completable_iff (h : d.Distinct) (hts : ∀ t ∈ ts, ¬ d.StartsSharp t.text) :
    d.Completable ts ↔ ∃ os, d.openings ts = .ok os := by
  constructor
  · rintro ⟨us, ns, hread⟩
    cases hopen : d.openings ts with
    | ok os => exact ⟨os, rfl⟩
    | error e =>
      obtain ⟨i, hi, os, -, hc⟩ := exists_first_stray hopen
      obtain ⟨within, rfl⟩ := stray_of_advance hc
      have hstray : (d.read ts).result = .error (.strayCloser within ⟨i, ts[i]⟩) := by
        rw [read_error_iff_of_tagless hts, hopen]
        rfl
      rw [read, Cell.number_append, readFrom_append_of_stray hstray] at hread
      cases hread
  · rintro ⟨os, hopen⟩
    have hmark : ∀ o : Opening, ∃ t, o.closer d = some t := by
      intro o
      cases o with
      | group b _ => exact (h.single (.closer b) rfl).imp' (fun c => [c]) fun _ => id
      | string _ => exact (h.single .quote rfl).imp' (fun c => [c]) fun _ => id
    refine ⟨os.map fun o => ⟨(o.closer d).getD [], none, none⟩, read_append_closers h hts hopen ?_⟩
    rw [List.map_map]
    refine List.map_congr_left fun o _ => ?_
    obtain ⟨t, ht⟩ := hmark o
    simp [ht]

/-- A closer is at fault exactly if the list can be completed in front of it and not behind it. -/
theorem stray_iff_of_tagless (h : d.Distinct) (hts : ∀ t ∈ ts, ¬ d.StartsSharp t.text) (i : Nat) :
    (∃ within c, (d.read ts).result = .error (.strayCloser within c) ∧ c.index = i) ↔
      d.Completable (ts.take i) ∧ ¬ d.Completable (ts.take (i + 1)) := by
  have htake : ∀ k, ∀ t ∈ ts.take k, ¬ d.StartsSharp t.text :=
    fun k t ht => hts t (List.mem_of_mem_take ht)
  rw [completable_iff h (htake i), completable_iff h (htake (i + 1))]
  constructor
  · rintro ⟨within, c, hread, rfl⟩
    obtain ⟨i, hi, os, hos, hc⟩ := exists_first_stray (openings_of_stray hts hread)
    obtain ⟨_, he⟩ := stray_of_advance hc
    obtain ⟨-, rfl⟩ := ReadError.strayCloser.inj he
    refine ⟨⟨os, hos⟩, ?_⟩
    rintro ⟨os', hos'⟩
    rw [openings_take_succ hi, hos] at hos'
    cases hc.symm.trans hos'
  · rintro ⟨⟨os, hos⟩, hnot⟩
    have hi : i < ts.length := by
      refine Nat.lt_of_not_le fun hle => hnot ⟨os, ?_⟩
      rwa [List.take_of_length_le (Nat.le_succ_of_le hle), ← List.take_of_length_le hle]
    rw [openings_take_succ hi, hos] at hnot
    cases hc : d.advance os ⟨i, ts[i]⟩ with
    | ok os' => exact absurd ⟨os', hc⟩ hnot
    | error e =>
      obtain ⟨within, rfl⟩ := stray_of_advance hc
      have htaken : d.openings (ts.take (i + 1)) = .error (.strayCloser within ⟨i, ts[i]⟩) := by
        rw [openings_take_succ hi, hos]
        exact hc
      have hall := openings_append_error htaken (ts.drop (i + 1))
      rw [List.take_append_drop] at hall
      refine ⟨within, ⟨i, ts[i]⟩, ?_, rfl⟩
      rw [read_error_iff_of_tagless hts, hall]
      rfl

/-- The tokens that a list begins with can be completed by the others. -/
theorem Completable.take (h : d.Completable ts) (k : Nat) : d.Completable (ts.take k) := by
  obtain ⟨us, ns, hread⟩ := h
  refine ⟨ts.drop k ++ us, ns, ?_⟩
  rwa [← List.append_assoc, List.take_append_drop]

/-! ## 5. The first defect -/

/-- **The reader reports the first defect, and where it is.**  Let the brackets, the quote and the
sharp be distinct single characters.

* If a token list does not read, then the message names a token of it by its number in the whole
  list and by its place, and calls it what it is; a tag without characters is never at fault.

Now let no token start with the sharp.

* A closer is at fault exactly if some tokens behind those in front of it make the list read, and
  none do so behind the closer itself.
* If the list does not read, but can be completed, as can then all the lists that it begins with,
  then what is at fault is the innermost bracket or quote that is open at its end, and the closers
  of all that are open, from the innermost one outwards, make it read. -/
theorem read_first_defect (h : d.Distinct) (ts : List Token) :
    (∀ e, (d.read ts).result = .error e →
        ∃ i tok, ts[i]? = some tok ∧ e.cell = ⟨i, tok⟩ ∧ d.Reports i tok e.message) ∧
      ((∀ t ∈ ts, ¬ d.StartsSharp t.text) →
        (∀ i, (∃ within c, (d.read ts).result = .error (.strayCloser within c) ∧ c.index = i) ↔
            d.Completable (ts.take i) ∧ ¬ d.Completable (ts.take (i + 1))) ∧
          ∀ e, (d.read ts).result = .error e → (∀ k, d.Completable (ts.take k)) →
            ∃ o os, d.openings ts = .ok (o :: os) ∧ e = o.defect ∧
              ∀ us : List Token,
                us.map (fun u => some u.text) = (o :: os).map (Opening.closer d) →
                  ∃ ns, (d.read (ts ++ us)).result = .ok ns) := by
  refine ⟨fun e he => reports_of_read h he, ?_⟩
  intro hts
  refine ⟨stray_iff_of_tagless h hts, ?_⟩
  intro e he hall
  have hwhole := hall ts.length
  rw [List.take_length, completable_iff h hts] at hwhole
  obtain ⟨os, hos⟩ := hwhole
  rw [read_error_iff_of_tagless hts, hos] at he
  cases os with
  | nil => cases he
  | cons o os =>
    refine ⟨o, os, hos, (Except.error.inj he).symm, ?_⟩
    intro us hus
    exact read_append_closers h hts hos hus

/-- A list is closed inside a vector, behind which nothing makes it read; and a string stays open in
a list, and the opener in it is no bracket. -/
theorem read_first_defect_stray_and_open :
    let d := Table.plain.dialect
    let stray : List Token :=
      [⟨['('], none, none⟩, ⟨['['], none, none⟩, ⟨['a'], none, none⟩, ⟨[')'], some 1, some 4⟩]
    let unclosed : List Token :=
      [⟨['('], none, none⟩, ⟨['"'], some 1, some 2⟩, ⟨['['], none, none⟩]
    let closers : List Token := [⟨['"'], none, none⟩, ⟨[')'], none, none⟩]
    d.Distinct ∧
      ((d.read stray).result = .error (.strayCloser (some .square) ⟨3, ⟨[')'], some 1, some 4⟩⟩) ∧
        d.Reports 3 ⟨[')'], some 1, some 4⟩
          "read error: unmatched closing token ')' in vector at token 3 line 1 char 4" ∧
        d.Completable (stray.take 3) ∧ ¬ d.Completable stray) ∧
      (d.read unclosed).result = .error (.unclosedString ⟨1, ⟨['"'], some 1, some 2⟩⟩) ∧
      ∃ ns, (d.read (unclosed ++ closers)).result = .ok ns := by
  intro d stray unclosed closers
  have h : d.Distinct := plain_regular.distinct_roles
  have hsharp : ∀ t ∈ stray, d.mark .sharp ≠ some (t.text.take 1) := by decide
  have hsharp' : ∀ t ∈ unclosed, d.mark .sharp ≠ some (t.text.take 1) := by decide
  have hstray : (d.read stray).result =
      .error (.strayCloser (some .square) ⟨3, ⟨[')'], some 1, some 4⟩⟩) :=
    (read_error_iff_of_tagless hsharp).2 rfl
  have hunclosed : (d.read unclosed).result =
      .error (.unclosedString ⟨1, ⟨['"'], some 1, some 2⟩⟩) :=
    (read_error_iff_of_tagless hsharp').2 rfl
  obtain ⟨hreports, htagless⟩ := read_first_defect h stray
  obtain ⟨i, tok, -, hcell, hmessage⟩ := hreports _ hstray
  obtain ⟨rfl, rfl⟩ := Cell.mk.inj hcell
  have hprefix := ((htagless hsharp).1 3).1 ⟨_, _, hstray, rfl⟩
  have hall : d.Completable unclosed := (completable_iff h hsharp').2 ⟨_, rfl⟩
  obtain ⟨o, os, hos, -, hclose⟩ :=
    ((read_first_defect h unclosed).2 hsharp').2 _ hunclosed hall.take
  obtain ⟨rfl, rfl⟩ := List.cons.inj (Except.ok.inj hos)
  exact ⟨h, ⟨hstray, hmessage, hprefix⟩, hunclosed, hclose closers rfl⟩

end Dialect

end SharpForms
