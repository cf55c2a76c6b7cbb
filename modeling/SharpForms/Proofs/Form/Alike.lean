/-
# Alike tokens are read as alike forms

The reader asks few questions about a token's text: of what kind it is, whether a tag has a region
and what closes it, and whether a later token is the one that closes a string or a region.  If two
dialects answer these alike for related texts (`Dialect.AsksAlike`), then alike token lists are read
as alike forms, or fail with alike errors (`Dialect.read_alike`).  So the reader sees of a text only
these answers.

The two runs go side by side: alike levels are open, and alike tokens are left.
-/
import SharpForms.Proofs.Alike
import SharpForms.Proofs.Form.Reading

namespace SharpForms

/-! ## 1. The questions -/

/-- Two texts that are related to each other and to nothing else. -/
def Partners (T : Text → Text → Prop) (t u : Text) : Prop :=
  T t u ∧ ∀ v w, T v w → (v = t ↔ w = u)

/-- What ends the region of a tag, if the tag has a character, and a region. -/
def Dialect.regionOf? (d : Dialect) (t : Text) : Option (Option Text) :=
  t.getLast?.map fun e => d.regionCloser? [e]

/-- Asked about related texts, the dialects answer alike, and what closes a string or a region is
the partner of what closes the other. -/
structure Dialect.AsksAlike (d d' : Dialect) (T : Text → Text → Prop) : Prop where
  kind : ∀ {t u}, T t u → d'.kind u = d.kind t
  quote : ∀ {t u}, d.kind t = .quote → T t u → Partners T t u
  region : ∀ {t u}, d.kind t = .sharp → T t u →
    Option.Rel (Option.Rel (Partners T)) (d.regionOf? t) (d'.regionOf? u)

/-- Levels opened by alike tokens, with alike forms in front. -/
structure Level.Alike (d : Dialect) (T : Text → Text → Prop) (l m : Level) : Prop where
  bracket : l.bracket = m.bracket
  opener : l.opener.Alike T m.opener
  before : FormsAlike d T l.before.reverse m.before.reverse

/-- The parts of two cuts are alike. -/
structure CutsAlike (T : Text → Text → Prop) (p q : List Cell × Cell × List Cell) : Prop where
  inside : List.Forall₂ (Cell.Alike T) p.1 q.1
  last : p.2.1.Alike T q.2.1
  rest : List.Forall₂ (Cell.Alike T) p.2.2 q.2.2

section

variable {d d' : Dialect} {T : Text → Text → Prop} {t u : Text} {e : Char}

namespace Dialect.AsksAlike

variable (h : d.AsksAlike d' T) (hk : d.kind t = .sharp) (ht : T t u)
include h hk ht

/-- A tag without characters is alike to such a tag only. -/
theorem getLast?_eq_none (hl : t.getLast? = none) : u.getLast? = none := by
  have hregion := h.region hk ht
  rw [regionOf?, regionOf?, hl] at hregion
  cases hu : u.getLast? with
  | none => rfl
  | some e => rw [hu] at hregion; cases hregion

/-- The last characters of two tags start alike regions. -/
theorem exists_last (hl : t.getLast? = some e) :
    ∃ e', u.getLast? = some e' ∧
      Option.Rel (Partners T) (d.regionCloser? [e]) (d'.regionCloser? [e']) := by
  have hregion := h.region hk ht
  rw [regionOf?, regionOf?, hl] at hregion
  cases hu : u.getLast? with
  | none => rw [hu] at hregion; cases hregion
  | some e' =>
    rw [hu] at hregion
    cases hregion with
    | some hrel => exact ⟨e', rfl, hrel⟩

theorem exists_tag (hl : t.getLast? = some e) (hr : d.regionCloser? [e] = none) :
    ∃ e', u.getLast? = some e' ∧ d'.regionCloser? [e'] = none := by
  obtain ⟨e', hu, hrel⟩ := h.exists_last hk ht hl
  rw [hr] at hrel
  cases hr' : d'.regionCloser? [e'] with
  | none => exact ⟨e', hu, hr'⟩
  | some closer => rw [hr'] at hrel; cases hrel

theorem exists_region {closer : Text} (hl : t.getLast? = some e)
    (hr : d.regionCloser? [e] = some closer) :
    ∃ e' closer', u.getLast? = some e' ∧ d'.regionCloser? [e'] = some closer' ∧
      Partners T closer closer' := by
  obtain ⟨e', hu, hrel⟩ := h.exists_last hk ht hl
  rw [hr] at hrel
  cases hr' : d'.regionCloser? [e'] with
  | none => rw [hr'] at hrel; cases hrel
  | some closer' =>
    rw [hr'] at hrel
    cases hrel with
    | some hpartners => exact ⟨e', closer', hu, hr', hpartners⟩

end Dialect.AsksAlike

/-! ## 2. Cuts -/

variable {cs cs' : List Cell}

/-- Alike token lists are cut at alike tokens. -/
theorem cutAt?_alike (ht : Partners T t u) (hcs : List.Forall₂ (Cell.Alike T) cs cs') :
    Option.Rel (CutsAlike T) (cutAt? t cs) (cutAt? u cs') := by
  induction hcs with
  | nil => exact .none
  | @cons c e cs es hce hcs ih =>
    have hiff := ht.2 _ _ hce.text
    by_cases hc : c.text = t
    · rw [cutAt?, if_pos hc, cutAt?, if_pos (hiff.1 hc)]
      exact .some ⟨.nil, hce, hcs⟩
    · rw [cutAt?, if_neg hc, cutAt?, if_neg (mt hiff.2 hc)]
      generalize cutAt? t cs = p at ih
      generalize cutAt? u es = q at ih
      cases ih with
      | none => exact .none
      | some hcut => exact .some ⟨.cons hce hcut.inside, hcut.last, hcut.rest⟩

/-- Where the one list is not cut, the other is not. -/
theorem cutAt?_eq_none_of_alike (ht : Partners T t u) (hcs : List.Forall₂ (Cell.Alike T) cs cs')
    (hcut : cutAt? t cs = none) : cutAt? u cs' = none := by
  have hrel := cutAt?_alike ht hcs
  rw [hcut] at hrel
  cases hcut' : cutAt? u cs' with
  | none => rfl
  | some q => rw [hcut'] at hrel; cases hrel

/-- Where the one list is cut, the other is. -/
theorem exists_cut_of_alike {p : List Cell × Cell × List Cell} (ht : Partners T t u)
    (hcs : List.Forall₂ (Cell.Alike T) cs cs') (hcut : cutAt? t cs = some p) :
    ∃ inside last rest, cutAt? u cs' = some (inside, last, rest) ∧
      CutsAlike T p (inside, last, rest) := by
  have hrel := cutAt?_alike ht hcs
  rw [hcut] at hrel
  cases hcut' : cutAt? u cs' with
  | none => rw [hcut'] at hrel; cases hrel
  | some q =>
    rw [hcut'] at hrel
    cases hrel with
    | some halike => exact ⟨q.1, q.2.1, q.2.2, rfl, halike⟩

/-! ## 3. Runs -/

namespace Dialect

variable {levels levels' : List Level} {found found' : List Node}

/-- **Side by side the reader does the same.** -/
theorem readFrom_alike (h : d.AsksAlike d' T) (hl : List.Forall₂ (Level.Alike d T) levels levels')
    (hf : FormsAlike d T found.reverse found'.reverse)
    (hcs : List.Forall₂ (Cell.Alike T) cs cs') :
    ResultsAlike d T (d.readFrom levels found cs).result
      (d'.readFrom levels' found' cs').result := by
  -- One more form on a level.
  have one : ∀ {found found' : List Node} {n m : Node},
      FormsAlike d T found.reverse found'.reverse → FormsAlike d T [n] [m] →
        FormsAlike d T (n :: found).reverse (m :: found').reverse := by
    intro found found' n m hf hn
    rw [List.reverse_cons, List.reverse_cons]
    exact hf.append hn
  induction levels, found, cs using d.readFrom_induction generalizing levels' found' cs' with
  | done found =>
    cases hl
    cases hcs
    rw [readFrom_done, readFrom_done]
    exact hf
  | unclosedGroup l levels found =>
    cases hl with
    | cons hlm _ =>
    cases hcs
    rw [readFrom_unclosedGroup, readFrom_unclosedGroup, ← hlm.bracket]
    exact .unclosedGroup hlm.opener
  | opener levels found c cs b hk ih =>
    cases hcs with
    | cons hce hcs =>
    rw [readFrom_opener hk, readFrom_opener ((h.kind hce.text).trans hk)]
    exact ih (.cons ⟨rfl, hce, hf⟩ hl) .empty hcs
  | strayTop found c cs b hk =>
    cases hl
    cases hcs with
    | cons hce _ =>
    rw [readFrom_strayTop hk, readFrom_strayTop ((h.kind hce.text).trans hk)]
    exact .strayCloser hce
  | closer l levels found c cs hk ih =>
    cases hl with
    | @cons _ m _ _ hlm hl =>
    cases hcs with
    | @cons _ e _ _ hce hcs =>
    have hk' : d'.kind e.text = .closer m.bracket := by
      rw [h.kind hce.text, hk, hlm.bracket]
    rw [readFrom_closer hk, readFrom_closer hk', Traced.result_emitForm, Traced.result_emitForm]
    refine ih hl (one hlm.before ?_) hcs
    rw [← hlm.bracket, hlm.opener.boundsTo_eq hce]
    exact .group hf
  | strayInside l levels found c cs b hk hb =>
    cases hl with
    | cons hlm _ =>
    cases hcs with
    | cons hce _ =>
    rw [readFrom_strayInside hk hb,
      readFrom_strayInside ((h.kind hce.text).trans hk) (hlm.bracket ▸ hb), ← hlm.bracket]
    exact .strayCloser hce
  | literal levels found c cs hk ih =>
    cases hcs with
    | cons hce hcs =>
    rw [readFrom_literal hk, readFrom_literal ((h.kind hce.text).trans hk),
      Traced.result_emitForm, Traced.result_emitForm]
    refine ih hl (one hf ?_) hcs
    rw [hce.boundsTo_eq hce]
    exact .literal hk hce.text
  | unclosedString levels found c cs hk hcut =>
    cases hcs with
    | cons hce hcs =>
    have hcut' := cutAt?_eq_none_of_alike (h.quote hk hce.text) hcs hcut
    rw [readFrom_unclosedString hk hcut,
      readFrom_unclosedString ((h.kind hce.text).trans hk) hcut']
    exact .unclosedString hce
  | string levels found c cs inside last rest hk hcut ih =>
    cases hcs with
    | cons hce hcs =>
    obtain ⟨inside', last', rest', hcut', halike⟩ :=
      exists_cut_of_alike (h.quote hk hce.text) hcs hcut
    rw [readFrom_string hk hcut, readFrom_string ((h.kind hce.text).trans hk) hcut',
      Traced.result_emitForm, Traced.result_emitForm]
    refine ih hl (one hf ?_) halike.rest
    rw [hce.boundsTo_eq halike.last]
    exact .string (Cell.texts_of_alike halike.inside)
  | emptyTag levels found c cs hk hlast =>
    cases hcs with
    | cons hce _ =>
    rw [readFrom_emptyTag hk hlast,
      readFrom_emptyTag ((h.kind hce.text).trans hk) (h.getLast?_eq_none hk hce.text hlast)]
    exact .emptyTag hce
  | tag levels found c cs e hk hlast hr ih =>
    cases hcs with
    | cons hce hcs =>
    obtain ⟨e', hlast', hr'⟩ := h.exists_tag hk hce.text hlast hr
    rw [readFrom_tag hk hlast hr, readFrom_tag ((h.kind hce.text).trans hk) hlast' hr',
      Traced.result_emitForm, Traced.result_emitForm]
    refine ih hl (one hf ?_) hcs
    rw [hce.boundsTo_eq hce]
    exact .tag ⟨hk, e, hlast, hr⟩ hce.text
  | unclosedRegion levels found c cs e closer hk hlast hr hcut =>
    cases hcs with
    | cons hce hcs =>
    obtain ⟨e', closer', hlast', hr', hpartners⟩ := h.exists_region hk hce.text hlast hr
    have hcut' := cutAt?_eq_none_of_alike hpartners hcs hcut
    rw [readFrom_unclosedRegion hk hlast hr hcut,
      readFrom_unclosedRegion ((h.kind hce.text).trans hk) hlast' hr' hcut']
    exact .unclosedRegion hpartners.1 hce
  | region levels found c cs e closer inside last rest hk hlast hr hcut ih ih' =>
    cases hcs with
    | cons hce hcs =>
    obtain ⟨e', closer', hlast', hr', hpartners⟩ := h.exists_region hk hce.text hlast hr
    obtain ⟨inside', last', rest', hcut', halike⟩ := exists_cut_of_alike hpartners hcs hcut
    rw [readFrom_region hk hlast hr hcut,
      readFrom_region ((h.kind hce.text).trans hk) hlast' hr' hcut', Traced.result_andThen,
      Traced.result_andThen]
    have hinside : ResultsAlike d T (d.readFrom [] [] inside).result
        (d'.readFrom [] [] inside').result := ih .nil .empty halike.inside
    cases hi : (d.readFrom [] [] inside).result with
    | error x =>
      cases hi' : (d'.readFrom [] [] inside').result with
      | error y => rw [hi, hi'] at hinside; exact hinside
      | ok ms => rw [hi, hi'] at hinside; exact hinside.elim
    | ok ns =>
      cases hi' : (d'.readFrom [] [] inside').result with
      | error y => rw [hi, hi'] at hinside; exact hinside.elim
      | ok ms =>
        rw [hi, hi'] at hinside
        refine ih' ns hl (one hf ?_) halike.rest
        rw [hce.boundsTo_eq halike.last]
        exact .region ⟨hk, e, hlast, hr⟩ hce.text hpartners.1 hinside

/-- **Alike token lists are read as alike forms, or fail with alike errors.** -/
theorem read_alike (h : d.AsksAlike d' T) {ts us : List Token}
    (hts : List.Forall₂ (Token.Alike T) ts us) :
    ResultsAlike d T (d.read ts).result (d'.read us).result :=
  readFrom_alike h .nil .empty (Cell.alike_number hts 0)

end Dialect

end

end SharpForms
