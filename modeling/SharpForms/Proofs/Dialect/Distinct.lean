/-
# Dialects with distinct brackets, quote and sharp

The reader asks only for the brackets, the quote and the sharp.  Where these are distinct single
characters its answers do not depend on the order of its questions, whatever the other roles are:
blanks and comment marks may meet the brackets, since tokens do not say what they were cut out
of.

With the other roles left empty such a dialect is regular (`regular_readerOnly`), and the reader
sees no difference, so what regular dialects say about the kinds of tokens carries over.
-/
import SharpForms.Proofs.Dialect.Regular

namespace SharpForms

/-- The roles that the reader asks for. -/
def Role.isRead : Role → Bool
  | .opener _ | .closer _ | .quote | .sharp => true
  | .space | .newline | .comment | .header => false

namespace Dialect

/-- The brackets, the quote and the sharp are pairwise distinct single characters. -/
structure Distinct (d : Dialect) : Prop where
  single : ∀ r, r.isRead = true → ∃ c, d.mark r = some [c]
  distinct : ∀ r r' t, r.isRead = true → r'.isRead = true →
    d.mark r = some t → d.mark r' = some t → r = r'

/-- The dialect with no other roles than those that the reader asks for. -/
def readerOnly (d : Dialect) : Dialect where
  mark
    | .opener b => d.mark (.opener b)
    | .closer b => d.mark (.closer b)
    | .quote => d.mark .quote
    | .sharp => d.mark .sharp
    | .space | .newline | .comment | .header => none
  extraSpace := []

variable {d : Dialect}

theorem mark_readerOnly {r : Role} (hr : r.isRead = true) : d.readerOnly.mark r = d.mark r := by
  cases r with
  | opener | closer | quote | sharp => rfl
  | space | newline | comment | header => cases hr

theorem isRead_of_mark_readerOnly {r : Role} {t : Text} (ht : d.readerOnly.mark r = some t) :
    r.isRead = true := by
  cases r with
  | opener | closer | quote | sharp => rfl
  | space | newline | comment | header => cases ht

theorem Distinct.regular_readerOnly (h : d.Distinct) : d.readerOnly.Regular where
  set r hr ho := by
    have hread : r.isRead = true := by
      cases r <;> simp_all [Role.isRead, Role.isNotation, Role.isOptional]
    obtain ⟨c, hc⟩ := h.single r hread
    exact ⟨[c], (mark_readerOnly hread).trans hc⟩
  single r t _ ht := by
    have hread := isRead_of_mark_readerOnly ht
    rw [mark_readerOnly hread] at ht
    obtain ⟨c, hc⟩ := h.single r hread
    exact ⟨c, Option.some.inj (ht.symm.trans hc)⟩
  distinct r r' t _ _ ht ht' := by
    have hread := isRead_of_mark_readerOnly ht
    have hread' := isRead_of_mark_readerOnly ht'
    rw [mark_readerOnly hread] at ht
    rw [mark_readerOnly hread'] at ht'
    exact h.distinct r r' t hread hread' ht ht'
  not_blank _ _ _ _ := rfl
  not_newline _ _ _ _ := nofun

/-- In a regular dialect they are distinct. -/
theorem Regular.distinct_roles (h : d.Regular) : d.Distinct where
  single r hr := by
    cases r with
    | opener | closer | quote | sharp => exact h.exists_mark rfl rfl
    | space | newline | comment | header => cases hr
  distinct r r' t hr hr' := by
    have hmarked : ∀ r : Role, r.isRead = true → r.isNotation = true := by
      intro r
      cases r <;> simp [Role.isRead, Role.isNotation]
    exact h.distinct r r' t (hmarked r hr) (hmarked r' hr')

namespace Distinct

variable (h : d.Distinct) {t : Text} {b : Bracket}
include h

theorem kind_of_closer (ht : d.mark (.closer b) = some t) : d.kind t = .closer b :=
  h.regular_readerOnly.kind_eq_closer_iff.2 ht

theorem kind_of_quote (ht : d.mark .quote = some t) : d.kind t = .quote :=
  h.regular_readerOnly.kind_eq_quote_iff.2 ht

/-- The tags are the tokens that start with the sharp. -/
theorem kind_eq_sharp_iff : d.kind t = .sharp ↔ d.StartsSharp t :=
  h.regular_readerOnly.kind_eq_sharp_iff

theorem ne_nil_of_startsSharp (hs : d.StartsSharp t) : t ≠ [] :=
  h.regular_readerOnly.ne_nil_of_startsSharp hs

end Distinct

end Dialect
end SharpForms
