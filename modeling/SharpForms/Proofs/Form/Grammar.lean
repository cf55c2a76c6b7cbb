/-
# The grammar of forms

A grammar for token lists that mentions neither a cursor nor a stack.  A forest is a sequence of
forms, and a form is a literal, a bracketed forest, a string, a tag without a region, or a tag with
its region.  A region is a forest of its own that holds no token equal to its closer; so it cannot
begin or end inside a form, and nothing inside it may stop at the closer.

The rules take token texts by a LEXICON, which says what each text may stand for.  A dialect has
two of them: `byMarks` asks only which marks the text is or contains, and `byKind` asks the
questions in the reader's order.  In a regular dialect they are the same (`byMarks_eq_byKind`).
-/
import SharpForms.Form.Reader
import SharpForms.Proofs.Dialect.Regular

namespace SharpForms

/-! ## 1. Lexicons -/

/-- What token texts stand for.  `region` relates a tag to the text that closes its region. -/
structure Lexicon where
  literal : Text → Prop
  opener : Bracket → Text → Prop
  closer : Bracket → Text → Prop
  quote : Text → Prop
  tag : Text → Prop
  region : Text → Text → Prop

namespace Dialect

/-- A text by the marks alone.  A tag starts with the sharp; it has a region if its last character
is an opener, which its bracket closes, or the quote, which closes itself. -/
def byMarks (d : Dialect) : Lexicon where
  literal t :=
    (∀ b, d.mark (.opener b) ≠ some t) ∧ (∀ b, d.mark (.closer b) ≠ some t) ∧
      d.mark .quote ≠ some t ∧ ¬ d.StartsSharp t
  opener b t := d.mark (.opener b) = some t
  closer b t := d.mark (.closer b) = some t
  quote t := d.mark .quote = some t
  tag t := d.StartsSharp t ∧ ∃ last, t.getLast? = some last ∧
    (∀ b, d.mark (.opener b) ≠ some [last]) ∧ d.mark .quote ≠ some [last]
  region t closer := d.StartsSharp t ∧ ∃ last, t.getLast? = some last ∧
    ((d.mark .quote = some [last] ∧ d.mark .quote = some closer) ∨
      ∃ b, d.mark (.opener b) = some [last] ∧ d.mark (.closer b) = some closer)

/-- A text by the reader's chain of questions. -/
def byKind (d : Dialect) : Lexicon where
  literal t := d.kind t = .leaf
  opener b t := d.kind t = .opener b
  closer b t := d.kind t = .closer b
  quote t := d.kind t = .quote
  tag t := d.kind t = .sharp ∧ ∃ last, t.getLast? = some last ∧ d.regionCloser? [last] = none
  region t closer :=
    d.kind t = .sharp ∧ ∃ last, t.getLast? = some last ∧ d.regionCloser? [last] = some closer

/-- Where no two marks meet, the order of the questions does not matter. -/
theorem byMarks_eq_byKind {d : Dialect} (h : d.Regular) : d.byMarks = d.byKind := by
  simp only [byMarks, byKind, h.kind_eq_leaf_iff, h.kind_eq_opener_iff, h.kind_eq_closer_iff,
    h.kind_eq_quote_iff, h.kind_eq_sharp_iff, h.regionCloser?_eq_none_iff,
    h.regionCloser?_eq_some_iff]

end Dialect

/-! ## 2. The rules -/

/-- The numbered tokens make up the forest. -/
inductive Forest (L : Lexicon) : List Cell → List Node → Prop
  | empty : Forest L [] []
  | append {cs cs' : List Cell} {ns ns' : List Node} :
      Forest L cs ns → Forest L cs' ns' → Forest L (cs ++ cs') (ns ++ ns')
  | literal {c : Cell} :
      L.literal c.text → Forest L [c] [.leaf .literal c.text (c.boundsTo c)]
  | group {b : Bracket} {o c : Cell} {cs : List Cell} {ns : List Node} :
      L.opener b o.text → Forest L cs ns → L.closer b c.text →
        Forest L (o :: cs ++ [c]) [.group b ns (o.boundsTo c)]
  | string {o c : Cell} {cs : List Cell} :
      L.quote o.text → (∀ x ∈ cs, ¬ L.quote x.text) → L.quote c.text →
        Forest L (o :: cs ++ [c]) [.string (cs.map Cell.text).flatten (o.boundsTo c)]
  | tag {c : Cell} :
      L.tag c.text → Forest L [c] [.dispatch c.text [] none (c.boundsTo c)]
  | region {o c : Cell} {cs : List Cell} {ns : List Node} :
      L.region o.text c.text → (∀ x ∈ cs, x.text ≠ c.text) → Forest L cs ns →
        Forest L (o :: cs ++ [c]) [.dispatch o.text ns (some c.text) (o.boundsTo c)]

namespace Forest

variable {L : Lexicon} {cs : List Cell} {ns : List Node}

/-- One form in front of a forest. -/
theorem cons {f : List Cell} {n : Node} (hf : Forest L f [n]) (h : Forest L cs ns) :
    Forest L (f ++ cs) (n :: ns) :=
  append hf h

/-- No tokens, no forms. -/
theorem nodes_eq_nil (h : Forest L cs ns) (hcs : cs = []) : ns = [] := by
  induction h with
  | empty => rfl
  | append _ _ ih ih' =>
    obtain ⟨h1, h2⟩ := List.append_eq_nil_iff.1 hcs
    rw [ih h1, ih' h2]
    rfl
  | literal | group | string | tag | region => simp at hcs

/-- No forms, no tokens. -/
theorem cells_eq_nil (h : Forest L cs ns) (hns : ns = []) : cs = [] := by
  induction h with
  | empty => rfl
  | append _ _ ih ih' =>
    obtain ⟨h1, h2⟩ := List.append_eq_nil_iff.1 hns
    rw [ih h1, ih' h2]
    rfl
  | literal | group | string | tag | region => simp at hns

end Forest

end SharpForms
