/-
# Forms that differ in their blanks

The reader does not see which blank a tag has taken in: such a tag has no region, and no token is
looked for by it.  So token lists that differ only there are read as forms that differ only in those
tags and in the strings that hold them (`FormsReblanked`), or fail with the very same error, since
no error names such a tag (`Dialect.read_reblanked`).
-/
import SharpForms.Proofs.Form.Alike
import SharpForms.Proofs.Form.ReadBack
import SharpForms.Proofs.Token.Blanks

namespace SharpForms

/-- The forms are of one shape and in the same places, and differ only in the blanks at the end of
tags: of tags without a region, and of those that are joined in strings. -/
inductive FormsReblanked (d : Dialect) : List Node → List Node → Prop
  | empty : FormsReblanked d [] []
  | append {ns ns' ms ms' : List Node} :
      FormsReblanked d ns ms → FormsReblanked d ns' ms' → FormsReblanked d (ns ++ ns') (ms ++ ms')
  | literal {t : Text} {at_ : Bounds} :
      FormsReblanked d [.leaf .literal t at_] [.leaf .literal t at_]
  | string {ts us : List Text} {at_ : Bounds} :
      List.Forall₂ d.TokenReblanked ts us →
        FormsReblanked d [.string ts.flatten at_] [.string us.flatten at_]
  | group {b : Bracket} {ns ms : List Node} {at_ : Bounds} :
      FormsReblanked d ns ms → FormsReblanked d [.group b ns at_] [.group b ms at_]
  | tag {t u : Text} {at_ : Bounds} :
      d.TokenReblanked t u → FormsReblanked d [.dispatch t [] none at_] [.dispatch u [] none at_]
  | region {t closer : Text} {ns ms : List Node} {at_ : Bounds} :
      FormsReblanked d ns ms →
        FormsReblanked d [.dispatch t ns (some closer) at_] [.dispatch t ms (some closer) at_]

section

variable {d : Dialect} {t u : Text} {ts us : List Token} {ns ms : List Node}

/-! ## 1. What the reader sees of a token -/

namespace Dialect

/-- Of other tokens than tags all is the same. -/
theorem TokenReblanked.eq_of_not_startsSharp (h : d.Regular) (ht : d.TokenReblanked t u)
    (hs : ¬ d.StartsSharp t) : u = t := by
  cases ht with
  | same => rfl
  | glued hs' => exact absurd (h.startsSharp_append hs' _) hs

theorem TokenReblanked.eq_of_kind (h : d.Regular) (ht : d.TokenReblanked t u)
    (hk : d.kind t ≠ .sharp) : u = t :=
  ht.eq_of_not_startsSharp h fun hs => hk (h.kind_eq_sharp_iff.2 hs)

/-- A blank starts no region. -/
theorem regionCloser?_of_blank (h : d.Regular) (ht : d.isBlank t = true) :
    d.regionCloser? t = none := by
  have hmark : ∀ {r : Role}, r.isNotation = true → d.mark r ≠ some t := by
    intro r hr hm
    rw [h.not_blank r t hr hm] at ht
    cases ht
  exact h.regionCloser?_eq_none_iff.2 ⟨fun b => hmark rfl, hmark rfl⟩

/-- So of a tag with a region all is the same. -/
theorem TokenReblanked.eq_of_region (h : d.Regular) (ht : d.TokenReblanked t u) {closer : Text}
    (hr : d.byKind.region t closer) : u = t := by
  cases ht with
  | same => rfl
  | glued _ hc =>
    obtain ⟨-, e, hlast, hr⟩ := hr
    rw [List.getLast?_concat] at hlast
    cases hlast
    rw [regionCloser?_of_blank h hc] at hr
    cases hr

/-- A token that is no tag is related to itself only. -/
theorem partners_self (h : d.Regular) (hs : ¬ d.StartsSharp t) : Partners d.TokenReblanked t t := by
  refine ⟨.same t, ?_⟩
  intro v w hvw
  cases hvw with
  | same => exact Iff.rfl
  | glued hs' =>
    constructor
    · rintro rfl
      exact absurd (h.startsSharp_append hs' _) hs
    · rintro rfl
      exact absurd (h.startsSharp_append hs' _) hs

/-- What closes a region is no tag. -/
theorem not_startsSharp_of_regionCloser (h : d.Regular) {last : Text} {closer : Text}
    (hr : d.regionCloser? last = some closer) : ¬ d.StartsSharp closer := by
  rcases h.regionCloser?_eq_some_iff.1 hr with ⟨-, hm⟩ | ⟨b, -, hm⟩
  · exact h.not_startsSharp rfl (by simp) hm
  · exact h.not_startsSharp rfl (by simp) hm

/-- **The reader does not see which blank a tag has taken in.** -/
theorem asksAlike_reblanked (h : d.Regular) : d.AsksAlike d d.TokenReblanked := by
  refine ⟨?_, ?_, ?_⟩
  · intro t u ht
    cases ht with
    | same => rfl
    | glued hs =>
      rw [h.kind_eq_sharp_iff.2 (h.startsSharp_append hs _),
        h.kind_eq_sharp_iff.2 (h.startsSharp_append hs _)]
  · intro t u hk ht
    have hs : ¬ d.StartsSharp t := by
      intro hs
      rw [h.kind_eq_sharp_iff.2 hs] at hk
      cases hk
    rw [ht.eq_of_not_startsSharp h hs]
    exact partners_self h hs
  · intro t u _ ht
    cases ht with
    | same =>
      rw [regionOf?]
      cases t.getLast? with
      | none => exact .none
      | some e =>
        rw [Option.map_some]
        refine .some ?_
        cases hr : d.regionCloser? [e] with
        | none => exact .none
        | some closer => exact .some (partners_self h (not_startsSharp_of_regionCloser h hr))
    | glued _ hc he =>
      rw [regionOf?, regionOf?, List.getLast?_concat, List.getLast?_concat, Option.map_some,
        Option.map_some, regionCloser?_of_blank h hc, regionCloser?_of_blank h he]
      exact .some .none

end Dialect

/-! ## 2. Forms and errors -/

theorem FormsAlike.reblanked (h : d.Regular) (hf : FormsAlike d d.TokenReblanked ns ms) :
    FormsReblanked d ns ms := by
  induction hf with
  | empty => exact .empty
  | append _ _ ih ih' => exact ih.append ih'
  | literal hk ht =>
    have hk' : d.kind _ = .leaf := hk
    rw [ht.eq_of_kind h (by simp [hk'])]
    exact .literal
  | string hts => exact .string hts
  | group _ ih => exact .group ih
  | tag _ ht => exact .tag ht
  | region hr ht hcloser _ ih =>
    obtain ⟨e, -, hclose⟩ := hr.2
    rw [ht.eq_of_region h hr,
      hcloser.eq_of_not_startsSharp h (Dialect.not_startsSharp_of_regionCloser h hclose)]
    exact .region ih

/-- Alike tokens with one text are one token. -/
theorem Cell.Alike.eq_of_text {T : Text → Text → Prop} {c e : Cell} (h : c.Alike T e)
    (ht : e.text = c.text) : e = c := by
  obtain ⟨i, t, line, char⟩ := c
  obtain ⟨j, u, line', char'⟩ := e
  obtain ⟨rfl, -, rfl, rfl⟩ := h
  obtain rfl : u = t := ht
  rfl

/-- **No error names a tag that has taken in a blank.** -/
theorem ReadError.Alike.eq_of_fits (h : d.Regular) {x y : ReadError}
    (hxy : x.Alike d.TokenReblanked y) (hx : x.Fits d) : y = x := by
  cases hxy with
  | unclosedGroup hce | unclosedString hce =>
    have hk : d.kind _ = _ := hx
    rw [hce.eq_of_text (hce.text.eq_of_kind h (by simp [hk]))]
  | strayCloser hce =>
    obtain ⟨b, hk, -⟩ := hx
    rw [hce.eq_of_text (hce.text.eq_of_kind h (by simp [hk]))]
  | unclosedRegion hcloser hce =>
    obtain ⟨e, -, hclose⟩ := hx.2
    rw [hce.eq_of_text (hce.text.eq_of_region h hx),
      hcloser.eq_of_not_startsSharp h (Dialect.not_startsSharp_of_regionCloser h hclose)]
  | emptyTag hce =>
    refine congrArg _ (hce.eq_of_text (hce.text.eq_of_not_startsSharp h ?_))
    intro hs
    exact h.ne_nil_of_startsSharp hs hx.2

/-- **Token lists that differ in their blanks are read alike**, or fail with one error. -/
theorem Dialect.read_reblanked (h : d.Regular)
    (hts : List.Forall₂ (Token.Alike d.TokenReblanked) ts us) :
    (∃ ns ms, (d.read ts).result = .ok ns ∧ (d.read us).result = .ok ms ∧
        FormsReblanked d ns ms) ∨
      ∃ e, (d.read ts).result = .error e ∧ (d.read us).result = .error e := by
  have hread := read_alike (asksAlike_reblanked h) hts
  cases hns : (d.read ts).result with
  | ok ns =>
    cases hms : (d.read us).result with
    | ok ms =>
      rw [hns, hms] at hread
      exact .inl ⟨ns, ms, rfl, rfl, FormsAlike.reblanked h hread⟩
    | error e => rw [hns, hms] at hread; exact hread.elim
  | error x =>
    cases hms : (d.read us).result with
    | ok ms => rw [hns, hms] at hread; exact hread.elim
    | error y =>
      rw [hns, hms] at hread
      rw [ReadError.Alike.eq_of_fits h hread (fits_of_read hns)]
      exact .inr ⟨x, rfl, rfl⟩

/-! ## 3. Forms without such blanks -/

/-- Token texts without sharps are the same. -/
theorem Dialect.eq_of_texts_reblanked (h : d.Regular) {ts us : List Text}
    (hts : List.Forall₂ d.TokenReblanked ts us)
    (hs : ∀ c ∈ ts.flatten, d.plays .sharp [c] = false) : us = ts := by
  induction hts with
  | nil => rfl
  | @cons t u ts us ht _ ih =>
    rw [List.flatten_cons, List.forall_mem_append] at hs
    rw [ih hs.2, ht.eq_of_not_startsSharp h ?_]
    intro hsharp
    obtain ⟨c, t, rfl⟩ := List.exists_cons_of_ne_nil (h.ne_nil_of_startsSharp hsharp)
    have hc := hs.1 c List.mem_cons_self
    rw [(d.plays_iff .sharp [c]).2 hsharp] at hc
    cases hc

/-- **Forms are the same** if no string holds the sharp and no tag ends in a blank. -/
theorem FormsReblanked.eq (h : d.Regular) (hf : FormsReblanked d ns ms) (hs : Sharpless d ns)
    (ht : ∀ t at_, .dispatch t [] none at_ ∈ Node.postorderAll ns →
      ∀ e ∈ t.getLast?, d.isBlank [e] = false) : ms = ns := by
  induction hf with
  | empty | literal => rfl
  | append _ _ ih ih' =>
    rw [Node.postorderAll_append] at ht
    rw [ih (sharpless_append.1 hs).1 fun t at_ hm => ht t at_ (List.mem_append_left _ hm),
      ih' (sharpless_append.1 hs).2 fun t at_ hm => ht t at_ (List.mem_append_right _ hm)]
  | @string ts us at_ hts =>
    rw [Dialect.eq_of_texts_reblanked h hts (hs ts.flatten at_ (by simp [Node.postorder]))]
  | @tag t u at_ htag =>
    rw [Node.postorderAll_singleton] at ht
    cases htag with
    | same => rfl
    | glued _ hc =>
      have hlast := ht _ at_ (Node.mem_postorder_self _) _ List.getLast?_concat
      rw [hc] at hlast
      cases hlast
  | group _ ih | region _ ih =>
    rw [Node.postorderAll_singleton, Node.postorder] at ht
    rw [ih (hs.inside rfl) fun t at_ hm => ht t at_ (List.mem_append_left _ hm)]

end

end SharpForms
