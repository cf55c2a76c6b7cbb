/-
# The reader reads exactly its grammar

The reader goes through the tokens once with a stack of open levels; the grammar of
`Proofs/Form/Grammar.lean` knows neither.  The two meet in `readFrom_eq_ok_iff`:

* **complete** (`Forest.readFrom_append`): wherever a forest stands, the reader takes its tokens and
  adds its forms to the level it is on, whatever the levels around it and the tokens behind it;
* **sound** (`finishes_of_readFrom`): a run that succeeds has found a forest for the rest of every
  open level, each ended by the closer of that level's bracket.

Both hold in every dialect, for the reader's own order of questions.  In a regular dialect the
grammar is the one by the marks, and the outcome is in `read_eq_ok_iff_forest`.
-/
import SharpForms.Proofs.Form.Grammar

namespace SharpForms
namespace Dialect

variable {d : Dialect} {levels : List Level} {found : List Node} {c last : Cell}
  {cs inside rest : List Cell}

/-! ## 1. One token at a time

The reader's branches as equations, one for each kind of token and each way it can go on. -/

theorem readFrom_done : d.readFrom [] found [] = .done found.reverse := by
  rw [readFrom]

theorem readFrom_unclosedGroup {l : Level} :
    d.readFrom (l :: levels) found [] = .fail (.unclosedGroup l.bracket l.opener) := by
  rw [readFrom]

theorem readFrom_opener {b : Bracket} (hk : d.kind c.text = .opener b) :
    d.readFrom levels found (c :: cs) = d.readFrom (⟨b, c, found⟩ :: levels) [] cs := by
  rw [readFrom, hk]

theorem readFrom_strayTop {b : Bracket} (hk : d.kind c.text = .closer b) :
    d.readFrom [] found (c :: cs) = .fail (.strayCloser none c) := by
  rw [readFrom, hk]

theorem readFrom_closer {l : Level} (hk : d.kind c.text = .closer l.bracket) :
    d.readFrom (l :: levels) found (c :: cs) =
      (d.readFrom levels (.group l.bracket found.reverse (l.opener.boundsTo c) :: l.before)
        cs).emitForm (.group l.bracket found.reverse (l.opener.boundsTo c)) := by
  rw [readFrom, hk]
  simp

theorem readFrom_strayInside {b : Bracket} {l : Level} (hk : d.kind c.text = .closer b)
    (hb : l.bracket ≠ b) :
    d.readFrom (l :: levels) found (c :: cs) = .fail (.strayCloser (some l.bracket) c) := by
  rw [readFrom, hk]
  simp [hb]

theorem readFrom_literal (hk : d.kind c.text = .leaf) :
    d.readFrom levels found (c :: cs) =
      (d.readFrom levels (.leaf .literal c.text (c.boundsTo c) :: found) cs).emitForm
        (.leaf .literal c.text (c.boundsTo c)) := by
  rw [readFrom, hk]

theorem readFrom_unclosedString (hk : d.kind c.text = .quote) (hcut : cutAt? c.text cs = none) :
    d.readFrom levels found (c :: cs) = .fail (.unclosedString c) := by
  rw [readFrom, hk]
  dsimp only
  split <;> simp_all

theorem readFrom_string (hk : d.kind c.text = .quote)
    (hcut : cutAt? c.text cs = some (inside, last, rest)) :
    d.readFrom levels found (c :: cs) =
      (d.readFrom levels (.string (inside.map Cell.text).flatten (c.boundsTo last) :: found)
        rest).emitForm (.string (inside.map Cell.text).flatten (c.boundsTo last)) := by
  rw [readFrom, hk]
  dsimp only
  split <;> simp_all

theorem readFrom_emptyTag (hk : d.kind c.text = .sharp) (hl : c.text.getLast? = none) :
    d.readFrom levels found (c :: cs) = .fail (.emptyTag c) := by
  rw [readFrom, hk]
  simp only [hl]

theorem readFrom_tag {e : Char} (hk : d.kind c.text = .sharp) (hl : c.text.getLast? = some e)
    (hr : d.regionCloser? [e] = none) :
    d.readFrom levels found (c :: cs) =
      (d.readFrom levels (.dispatch c.text [] none (c.boundsTo c) :: found) cs).emitForm
        (.dispatch c.text [] none (c.boundsTo c)) := by
  rw [readFrom, hk]
  simp only [hl, hr]

theorem readFrom_unclosedRegion {e : Char} {closer : Text} (hk : d.kind c.text = .sharp)
    (hl : c.text.getLast? = some e) (hr : d.regionCloser? [e] = some closer)
    (hcut : cutAt? closer cs = none) :
    d.readFrom levels found (c :: cs) = .fail (.unclosedRegion closer c) := by
  rw [readFrom, hk]
  simp only [hl, hr]
  split <;> simp_all

theorem readFrom_region {e : Char} {closer : Text} (hk : d.kind c.text = .sharp)
    (hl : c.text.getLast? = some e) (hr : d.regionCloser? [e] = some closer)
    (hcut : cutAt? closer cs = some (inside, last, rest)) :
    d.readFrom levels found (c :: cs) =
      (d.readFrom [] [] inside).andThen fun items =>
        (d.readFrom levels (.dispatch c.text items (some closer) (c.boundsTo last) :: found)
          rest).emitForm (.dispatch c.text items (some closer) (c.boundsTo last)) := by
  rw [readFrom, hk]
  simp only [hl, hr]
  split <;> simp_all

/-- **Induction along a run of the reader.**  One case for each way the reader goes on or stops;
a region is a run of its own, from an empty stack. -/
theorem readFrom_induction (d : Dialect) {motive : List Level → List Node → List Cell → Prop}
    (done : ∀ found : List Node, motive [] found [])
    (unclosedGroup : ∀ (l : Level) (levels : List Level) (found : List Node),
      motive (l :: levels) found [])
    (opener : ∀ (levels : List Level) (found : List Node) (c : Cell) (cs : List Cell) (b : Bracket),
      d.kind c.text = .opener b → motive (⟨b, c, found⟩ :: levels) [] cs →
      motive levels found (c :: cs))
    (strayTop : ∀ (found : List Node) (c : Cell) (cs : List Cell) (b : Bracket),
      d.kind c.text = .closer b → motive [] found (c :: cs))
    (closer : ∀ (l : Level) (levels : List Level) (found : List Node) (c : Cell) (cs : List Cell),
      d.kind c.text = .closer l.bracket →
      motive levels (Node.group l.bracket found.reverse (l.opener.boundsTo c) :: l.before) cs →
      motive (l :: levels) found (c :: cs))
    (strayInside : ∀ (l : Level) (levels : List Level) (found : List Node) (c : Cell)
      (cs : List Cell) (b : Bracket), d.kind c.text = .closer b → l.bracket ≠ b →
      motive (l :: levels) found (c :: cs))
    (literal : ∀ (levels : List Level) (found : List Node) (c : Cell) (cs : List Cell),
      d.kind c.text = .leaf →
      motive levels (Node.leaf .literal c.text (c.boundsTo c) :: found) cs →
      motive levels found (c :: cs))
    (unclosedString : ∀ (levels : List Level) (found : List Node) (c : Cell) (cs : List Cell),
      d.kind c.text = .quote → cutAt? c.text cs = none → motive levels found (c :: cs))
    (string : ∀ (levels : List Level) (found : List Node) (c : Cell) (cs inside : List Cell)
      (last : Cell) (rest : List Cell), d.kind c.text = .quote →
      cutAt? c.text cs = some (inside, last, rest) →
      motive levels (Node.string (inside.map Cell.text).flatten (c.boundsTo last) :: found) rest →
      motive levels found (c :: cs))
    (emptyTag : ∀ (levels : List Level) (found : List Node) (c : Cell) (cs : List Cell),
      d.kind c.text = .sharp → c.text.getLast? = none → motive levels found (c :: cs))
    (tag : ∀ (levels : List Level) (found : List Node) (c : Cell) (cs : List Cell) (e : Char),
      d.kind c.text = .sharp → c.text.getLast? = some e → d.regionCloser? [e] = none →
      motive levels (Node.dispatch c.text [] none (c.boundsTo c) :: found) cs →
      motive levels found (c :: cs))
    (unclosedRegion : ∀ (levels : List Level) (found : List Node) (c : Cell) (cs : List Cell)
      (e : Char) (closer : Text), d.kind c.text = .sharp → c.text.getLast? = some e →
      d.regionCloser? [e] = some closer → cutAt? closer cs = none → motive levels found (c :: cs))
    (region : ∀ (levels : List Level) (found : List Node) (c : Cell) (cs : List Cell)
      (e : Char) (closer : Text) (inside : List Cell) (last : Cell) (rest : List Cell),
      d.kind c.text = .sharp → c.text.getLast? = some e → d.regionCloser? [e] = some closer →
      cutAt? closer cs = some (inside, last, rest) → motive [] [] inside →
      (∀ items, motive levels
        (Node.dispatch c.text items (some closer) (c.boundsTo last) :: found) rest) →
      motive levels found (c :: cs))
    (levels : List Level) (found : List Node) (cs : List Cell) : motive levels found cs := by
  -- The tokens that are left get fewer with every token taken and every cut.
  obtain ⟨n, hn⟩ : ∃ n, cs.length = n := ⟨_, rfl⟩
  induction n using Nat.strongRecOn generalizing levels found cs with
  | _ n ih =>
    subst hn
    cases cs with
    | nil =>
      cases levels with
      | nil => exact done found
      | cons l levels => exact unclosedGroup l levels found
    | cons c cs =>
      have next : ∀ levels found, motive levels found cs := by
        intro levels found
        exact ih cs.length (by simp) levels found cs rfl
      have cut : ∀ {t inside last rest}, cutAt? t cs = some (inside, last, rest) →
          motive [] [] inside ∧ ∀ levels found, motive levels found rest := by
        intro t inside last rest hcut
        obtain ⟨hi, hr⟩ := length_of_cutAt? hcut
        refine ⟨ih inside.length ?_ _ _ inside rfl, ?_⟩
        · simp only [List.length_cons]
          omega
        · intro levels found
          refine ih rest.length ?_ levels found rest rfl
          simp only [List.length_cons]
          omega
      cases hk : d.kind c.text with
      | opener b => exact opener levels found c cs b hk (next _ _)
      | closer b =>
        cases levels with
        | nil => exact strayTop found c cs b hk
        | cons l levels =>
          by_cases hb : l.bracket = b
          · subst hb; exact closer l levels found c cs hk (next _ _)
          · exact strayInside l levels found c cs b hk hb
      | leaf => exact literal levels found c cs hk (next _ _)
      | quote =>
        cases hcut : cutAt? c.text cs with
        | none => exact unclosedString levels found c cs hk hcut
        | some p => exact string levels found c cs _ _ _ hk hcut ((cut hcut).2 _ _)
      | sharp =>
        cases hl : c.text.getLast? with
        | none => exact emptyTag levels found c cs hk hl
        | some e =>
          cases hr : d.regionCloser? [e] with
          | none => exact tag levels found c cs e hk hl hr (next _ _)
          | some closer =>
            cases hcut : cutAt? closer cs with
            | none => exact unclosedRegion levels found c cs e closer hk hl hr hcut
            | some p =>
              exact region levels found c cs e closer _ _ _ hk hl hr hcut (cut hcut).1
                fun items => (cut hcut).2 _ _

/-! ## 2. Complete: what is a forest is read -/

/-- The quote is the only text that counts as the quote. -/
theorem text_eq_of_kind_quote {t u : Text} (ht : d.kind t = .quote) (hu : d.kind u = .quote) :
    u = t := by
  have h1 := (d.kind_eq_quote_iff.1 ht).2
  have h2 := (d.kind_eq_quote_iff.1 hu).2
  rw [h1] at h2
  exact (Option.some.inj h2).symm

end Dialect

/-- **Wherever a forest stands, the reader takes it.**  The forms join the level that the reader is
on, and the reader goes on behind the forest. -/
theorem Forest.readFrom_append {d : Dialect} {cs : List Cell} {ns : List Node}
    (h : Forest d.byKind cs ns) (levels : List Level) (found : List Node) (rest : List Cell) :
    (d.readFrom levels found (cs ++ rest)).result =
      (d.readFrom levels (ns.reverse ++ found) rest).result := by
  induction h generalizing levels found rest with
  | empty => rfl
  | append _ _ ih ih' =>
    rw [List.append_assoc, ih, ih', List.reverse_append, List.append_assoc]
  | literal hk =>
    rw [List.singleton_append, Dialect.readFrom_literal hk]
    rfl
  | @group b o c cs ns ho _ hc ih =>
    rw [List.cons_append, List.cons_append, List.append_assoc, List.singleton_append,
      Dialect.readFrom_opener ho, ih, List.append_nil,
      Dialect.readFrom_closer (l := ⟨b, o, found⟩) hc]
    simp
  | @string o c cs ho hcs hc =>
    have hcut : cutAt? o.text (cs ++ c :: rest) = some (cs, c, rest) := by
      refine cutAt?_eq_some_iff.2 ⟨rfl, Dialect.text_eq_of_kind_quote ho hc, ?_⟩
      intro x hx he
      have hk : d.kind x.text = .quote := by rw [he]; exact ho
      exact hcs x hx hk
    rw [List.cons_append, List.cons_append, List.append_assoc, List.singleton_append,
      Dialect.readFrom_string ho hcut]
    rfl
  | tag ht =>
    obtain ⟨hk, e, hl, hr⟩ := ht
    rw [List.singleton_append, Dialect.readFrom_tag hk hl hr]
    rfl
  | @region o c cs ns ho hcs _ ih =>
    obtain ⟨hk, e, hl, hr⟩ := ho
    have hcut : cutAt? c.text (cs ++ c :: rest) = some (cs, c, rest) :=
      cutAt?_eq_some_iff.2 ⟨rfl, rfl, hcs⟩
    have hin : (d.readFrom [] [] cs).result = .ok ns := by
      have := ih [] [] []
      rw [List.append_nil, List.append_nil, d.readFrom_done, List.reverse_reverse] at this
      exact this
    rw [List.cons_append, List.cons_append, List.append_assoc, List.singleton_append,
      Dialect.readFrom_region hk hl hr hcut, Traced.result_andThen, hin]
    rfl

/-- A forest alone is read as its forms. -/
theorem Forest.readFrom_eq {d : Dialect} {cs : List Cell} {ns : List Node}
    (h : Forest d.byKind cs ns) : (d.readFrom [] [] cs).result = .ok ns := by
  have := h.readFrom_append [] [] []
  rw [List.append_nil, List.append_nil, d.readFrom_done, List.reverse_reverse] at this
  exact this

/-! ## 3. Sound: what is read is a forest -/

namespace Dialect

/-- What a successful run leaves to be done from inside open levels: a forest for the rest of the
innermost level, its closer, and so on outwards; `out` are the forms of the whole text. -/
def Finishes (d : Dialect) : List Level → List Node → List Cell → List Node → Prop
  | [], found, cs, out => ∃ ns, Forest d.byKind cs ns ∧ out = found.reverse ++ ns
  | l :: outer, found, cs, out =>
    ∃ inside ns c rest, cs = inside ++ c :: rest ∧ Forest d.byKind inside ns ∧
      d.kind c.text = .closer l.bracket ∧
      Finishes d outer
        (.group l.bracket (found.reverse ++ ns) (l.opener.boundsTo c) :: l.before) rest out

variable {d : Dialect} {levels : List Level} {found : List Node} {cs : List Cell}

/-- A form in front, already counted among those found, can be counted as still to come. -/
theorem Finishes.prepend {f rest : List Cell} {n : Node} {out : List Node}
    (hf : Forest d.byKind f [n]) (h : d.Finishes levels (n :: found) rest out) :
    d.Finishes levels found (f ++ rest) out := by
  cases levels with
  | nil =>
    obtain ⟨ns, hns, rfl⟩ := h
    exact ⟨n :: ns, hf.cons hns, by simp⟩
  | cons l outer =>
    obtain ⟨inside, ns, c, rest, rfl, hns, hc, h⟩ := h
    refine ⟨f ++ inside, n :: ns, c, rest, by simp, hf.cons hns, hc, ?_⟩
    simpa using h

/-- A level that finishes is a group for the level around it. -/
theorem Finishes.close {b : Bracket} {o : Cell} {out : List Node}
    (ho : d.kind o.text = .opener b)
    (h : d.Finishes (⟨b, o, found⟩ :: levels) [] cs out) :
    d.Finishes levels found (o :: cs) out := by
  obtain ⟨inside, ns, c, rest, rfl, hns, hc, h⟩ := h
  have hg : Forest d.byKind (o :: inside ++ [c]) [.group b ns (o.boundsTo c)] := .group ho hns hc
  have := Finishes.prepend hg h
  simpa using this

/-- **A run that succeeds has found a forest for every level.** -/
theorem finishes_of_readFrom {out : List Node} (h : (d.readFrom levels found cs).result = .ok out) :
    d.Finishes levels found cs out := by
  induction levels, found, cs using d.readFrom_induction generalizing out with
  | done found =>
    rw [readFrom_done] at h
    exact ⟨[], .empty, by simpa using (Except.ok.inj h).symm⟩
  | unclosedGroup l levels found => rw [readFrom_unclosedGroup] at h; cases h
  | opener levels found c cs b hk ih =>
    rw [readFrom_opener hk] at h
    exact (ih h).close hk
  | strayTop found c cs b hk => rw [readFrom_strayTop hk] at h; cases h
  | closer l levels found c cs hk ih =>
    rw [readFrom_closer hk, Traced.result_emitForm] at h
    exact ⟨[], [], c, cs, rfl, .empty, hk, by simpa using ih h⟩
  | strayInside l levels found c cs b hk hb => rw [readFrom_strayInside hk hb] at h; cases h
  | literal levels found c cs hk ih =>
    rw [readFrom_literal hk, Traced.result_emitForm] at h
    exact (ih h).prepend (.literal hk)
  | unclosedString levels found c cs hk hcut =>
    rw [readFrom_unclosedString hk hcut] at h; cases h
  | string levels found c cs inside last rest hk hcut ih =>
    rw [readFrom_string hk hcut, Traced.result_emitForm] at h
    obtain ⟨rfl, hlast, hfirst⟩ := cutAt?_eq_some_iff.1 hcut
    have hs : Forest d.byKind (c :: inside ++ [last])
        [.string (inside.map Cell.text).flatten (c.boundsTo last)] := by
      refine .string hk ?_ ((congrArg d.kind hlast).trans hk)
      intro x hx hq
      exact hfirst x hx (text_eq_of_kind_quote hk hq)
    simpa using (ih h).prepend hs
  | emptyTag levels found c cs hk hl => rw [readFrom_emptyTag hk hl] at h; cases h
  | tag levels found c cs e hk hl hr ih =>
    rw [readFrom_tag hk hl hr, Traced.result_emitForm] at h
    exact (ih h).prepend (.tag ⟨hk, e, hl, hr⟩)
  | unclosedRegion levels found c cs e closer hk hl hr hcut =>
    rw [readFrom_unclosedRegion hk hl hr hcut] at h; cases h
  | region levels found c cs e closer inside last rest hk hl hr hcut ih ih' =>
    rw [readFrom_region hk hl hr hcut, Traced.result_andThen] at h
    obtain ⟨rfl, hlast, hfirst⟩ := cutAt?_eq_some_iff.1 hcut
    cases hi : (d.readFrom [] [] inside).result with
    | error e => rw [hi] at h; cases h
    | ok items =>
      rw [hi] at h
      obtain ⟨ns, hns, hitems⟩ := ih hi
      obtain rfl : items = ns := hitems
      subst hlast
      have hreg : Forest d.byKind (c :: inside ++ [last])
          [.dispatch c.text items (some last.text) (c.boundsTo last)] :=
        .region ⟨hk, e, hl, hr⟩ hfirst hns
      simpa using (ih' items h).prepend hreg

/-- In every dialect, what is read from an empty stack is exactly what is a forest. -/
theorem readFrom_eq_ok_iff {ns : List Node} :
    (d.readFrom [] [] cs).result = .ok ns ↔ Forest d.byKind cs ns := by
  constructor
  · intro h
    obtain ⟨ms, hms, rfl⟩ := finishes_of_readFrom h
    exact hms
  · exact Forest.readFrom_eq

/-- In every dialect a token list reads as the forest that it is. -/
theorem read_eq_ok_iff {ts : List Token} {ns : List Node} :
    (d.read ts).result = .ok ns ↔ Forest d.byKind (Cell.number 0 ts) ns :=
  readFrom_eq_ok_iff

end Dialect

/-! ## 4. Why a token list does not read

Every error names a token that the reader takes for what the error says. -/

/-- The token that the error names is of the kind that the error is about. -/
def ReadError.Fits (d : Dialect) : ReadError → Prop
  | .unclosedGroup b o => d.kind o.text = .opener b
  | .unclosedString q => d.kind q.text = .quote
  | .unclosedRegion closer t => d.byKind.region t.text closer
  | .strayCloser within c => ∃ b, d.kind c.text = .closer b ∧ within ≠ some b
  | .emptyTag t => d.kind t.text = .sharp ∧ t.text = []

namespace Dialect

variable {d : Dialect} {levels : List Level} {found : List Node} {cs : List Cell}

/-- A failing run names a token of the right kind, which is still to be read or has opened a level,
if the levels were opened by openers. -/
theorem blamed_of_readFrom {e : ReadError}
    (hopen : ∀ l ∈ levels, d.kind l.opener.text = .opener l.bracket)
    (h : (d.readFrom levels found cs).result = .error e) :
    e.Fits d ∧ e.cell ∈ levels.map Level.opener ++ cs := by
  induction levels, found, cs using d.readFrom_induction generalizing e with
  | done found => rw [readFrom_done] at h; cases h
  | unclosedGroup l levels found =>
    rw [readFrom_unclosedGroup] at h
    cases h
    exact ⟨hopen l List.mem_cons_self, by simp [ReadError.cell]⟩
  | opener levels found c cs b hk ih =>
    rw [readFrom_opener hk] at h
    obtain ⟨hfits, hmem⟩ := ih (List.forall_mem_cons.2 ⟨hk, hopen⟩) h
    refine ⟨hfits, ?_⟩
    simpa [or_left_comm] using hmem
  | strayTop found c cs b hk =>
    rw [readFrom_strayTop hk] at h
    cases h
    exact ⟨⟨b, hk, by simp⟩, by simp [ReadError.cell]⟩
  | closer l levels found c cs hk ih =>
    rw [readFrom_closer hk, Traced.result_emitForm] at h
    obtain ⟨hfits, hmem⟩ := ih (List.forall_mem_cons.1 hopen).2 h
    exact ⟨hfits, by grind⟩
  | strayInside l levels found c cs b hk hb =>
    rw [readFrom_strayInside hk hb] at h
    cases h
    exact ⟨⟨b, hk, by simpa using hb⟩, by simp [ReadError.cell]⟩
  | literal levels found c cs hk ih =>
    rw [readFrom_literal hk, Traced.result_emitForm] at h
    obtain ⟨hfits, hmem⟩ := ih hopen h
    exact ⟨hfits, by grind⟩
  | unclosedString levels found c cs hk hcut =>
    rw [readFrom_unclosedString hk hcut] at h
    cases h
    exact ⟨hk, by simp [ReadError.cell]⟩
  | string levels found c cs inside last rest hk hcut ih =>
    rw [readFrom_string hk hcut, Traced.result_emitForm] at h
    obtain ⟨rfl, -, -⟩ := cutAt?_eq_some_iff.1 hcut
    obtain ⟨hfits, hmem⟩ := ih hopen h
    exact ⟨hfits, by grind⟩
  | emptyTag levels found c cs hk hl =>
    rw [readFrom_emptyTag hk hl] at h
    cases h
    exact ⟨⟨hk, List.getLast?_eq_none_iff.1 hl⟩, by simp [ReadError.cell]⟩
  | tag levels found c cs e' hk hl hr ih =>
    rw [readFrom_tag hk hl hr, Traced.result_emitForm] at h
    obtain ⟨hfits, hmem⟩ := ih hopen h
    exact ⟨hfits, by grind⟩
  | unclosedRegion levels found c cs e' closer hk hl hr hcut =>
    rw [readFrom_unclosedRegion hk hl hr hcut] at h
    cases h
    exact ⟨⟨hk, e', hl, hr⟩, by simp [ReadError.cell]⟩
  | region levels found c cs e' closer inside last rest hk hl hr hcut ih ih' =>
    rw [readFrom_region hk hl hr hcut, Traced.result_andThen] at h
    obtain ⟨rfl, -, -⟩ := cutAt?_eq_some_iff.1 hcut
    cases hi : (d.readFrom [] [] inside).result with
    | error e'' =>
      rw [hi] at h
      cases h
      obtain ⟨hfits, hmem⟩ := ih (by simp) hi
      exact ⟨hfits, by grind⟩
    | ok items =>
      rw [hi] at h
      obtain ⟨hfits, hmem⟩ := ih' items hopen h
      exact ⟨hfits, by grind⟩

/-- A reading that fails names a token of the list, and one of the right kind. -/
theorem blamed_of_read {ts : List Token} {e : ReadError} (h : (d.read ts).result = .error e) :
    e.Fits d ∧ e.cell ∈ Cell.number 0 ts :=
  blamed_of_readFrom (by simp) h

theorem fits_of_read {ts : List Token} {e : ReadError} (h : (d.read ts).result = .error e) :
    e.Fits d :=
  (blamed_of_read h).1

/-! ## 5. Regular dialects -/

/-- **The reader accepts exactly its grammar.**  In a regular dialect a token list, whatever its
texts, reads as some forms exactly when it is a forest with these forms by the marks alone; it is
no other forest; and if it does not read, the defect is one of the notation, never a tag without
characters. -/
theorem read_eq_ok_iff_forest (h : d.Regular) (ts : List Token) :
    (∀ ns, (d.read ts).result = .ok ns ↔ Forest d.byMarks (Cell.number 0 ts) ns) ∧
      (∀ ns ms, Forest d.byMarks (Cell.number 0 ts) ns → Forest d.byMarks (Cell.number 0 ts) ms →
        ns = ms) ∧
      ∀ e c, (d.read ts).result = .error e → e ≠ .emptyTag c := by
  rw [byMarks_eq_byKind h]
  refine ⟨fun ns => read_eq_ok_iff, ?_, ?_⟩
  · intro ns ms hns hms
    have h1 := read_eq_ok_iff.2 hns
    rw [read_eq_ok_iff.2 hms] at h1
    exact (Except.ok.inj h1).symm
  · rintro e c he rfl
    obtain ⟨hs, hc⟩ := fits_of_read he
    exact h.ne_nil_of_startsSharp (h.kind_eq_sharp_iff.1 hs) hc

/-- A vector that holds a dispatch whose region holds a string with a bracket in it: the grammar
has a derivation, so it is read. -/
theorem read_region_with_string :
    Table.plain.dialect.Regular ∧
      (Table.plain.dialect.read
        [⟨['['], none, none⟩, ⟨['#', '('], none, none⟩, ⟨['"'], none, none⟩, ⟨[']'], none, none⟩,
          ⟨['"'], none, none⟩, ⟨[')'], none, none⟩, ⟨[']'], none, none⟩]).result =
        .ok [.group .square
          [.dispatch ['#', '('] [.string [']'] ⟨some 2, some 4, none, none⟩] (some [')'])
            ⟨some 1, some 5, none, none⟩]
          ⟨some 0, some 6, none, none⟩] := by
  refine ⟨plain_regular, ((read_eq_ok_iff_forest plain_regular _).1 _).2 ?_⟩
  have hfirst : ∀ x ∈ [(⟨3, ⟨[']'], none, none⟩⟩ : Cell)],
      Table.plain.dialect.mark .quote ≠ some x.text := by decide
  have inner : Forest Table.plain.dialect.byMarks _ _ :=
    @Forest.string _ ⟨2, ⟨['"'], none, none⟩⟩ ⟨4, ⟨['"'], none, none⟩⟩ _ rfl hfirst rfl
  have region : Forest Table.plain.dialect.byMarks _ _ :=
    @Forest.region _ ⟨1, ⟨['#', '('], none, none⟩⟩ ⟨5, ⟨[')'], none, none⟩⟩ _ _
      ⟨rfl, '(', rfl, .inr ⟨.round, rfl, rfl⟩⟩ (by decide) inner
  exact @Forest.group _ .square ⟨0, ⟨['['], none, none⟩⟩ ⟨6, ⟨[']'], none, none⟩⟩ _ _ rfl region rfl

end Dialect

end SharpForms
