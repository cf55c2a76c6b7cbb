/-
# Regular dialects

A table may give any texts to the roles, also equal ones, and then the order of the look-ups
decides who wins.  A dialect is REGULAR when that order does not matter: the marks of the notation
(brackets, quote, sharp, and the comment and header marks where they are set) are pairwise distinct
single characters, none of them blank and none of them the newline.

* `kind_eq_*_iff`: in a regular dialect the reader's chain of questions is a plain case
  distinction on the marks.
* `entersString_iff`, `inStringAfter_of_delimiter`, `inStringAfter_of_startsSharp`: when the string
  flag moves.
* `lines_regular`, `plain_regular`: the library's own tables are regular.
-/
import SharpForms.Dialect.Table

namespace SharpForms

/-- The roles whose marks make up the notation; the space and the newline only separate. -/
def Role.isNotation : Role → Bool
  | .space | .newline => false
  | _ => true

/-- The roles that a dialect may leave empty without losing a part of the notation. -/
def Role.isOptional : Role → Bool
  | .comment | .header => true
  | _ => false

namespace Dialect

/-! ## 1. The condition -/

/-- The marks of the notation are pairwise distinct single characters, none of them blank or the
newline; only the comment and the header mark may be missing. -/
structure Regular (d : Dialect) : Prop where
  set : ∀ r, r.isNotation = true → r.isOptional = false → ∃ t, d.mark r = some t
  single : ∀ r t, r.isNotation = true → d.mark r = some t → ∃ c, t = [c]
  distinct : ∀ r r' t, r.isNotation = true → r'.isNotation = true →
    d.mark r = some t → d.mark r' = some t → r = r'
  not_blank : ∀ r t, r.isNotation = true → d.mark r = some t → d.isBlank t = false
  not_newline : ∀ r t, r.isNotation = true → d.mark r = some t → d.mark .newline ≠ some t

variable {d : Dialect}

/-- The text starts with the sharp, as a dispatch tag does. -/
def StartsSharp (d : Dialect) (t : Text) : Prop := d.mark .sharp = some (t.take 1)

namespace Regular

variable (h : d.Regular)
include h

/-- A notation role that is not optional has a mark of one character. -/
theorem exists_mark {r : Role} (hr : r.isNotation = true) (ho : r.isOptional = false) :
    ∃ c, d.mark r = some [c] := by
  obtain ⟨t, ht⟩ := h.set r hr ho
  obtain ⟨c, rfl⟩ := h.single r t hr ht
  exact ⟨c, ht⟩

/-- Two different roles never share a text. -/
theorem mark_ne {r r' : Role} {t : Text} (hr : r.isNotation = true) (hr' : r'.isNotation = true)
    (hne : r ≠ r') (ht : d.mark r = some t) : d.mark r' ≠ some t := by
  intro ht'
  exact hne (h.distinct r r' t hr hr' ht ht')

/-! ## 2. The questions about a text -/

/-- A text opens the bracket that it is the mark of. -/
theorem openerOf?_eq_some_iff {t : Text} {b : Bracket} :
    d.openerOf? t = some b ↔ d.mark (.opener b) = some t := by
  constructor
  · exact d.mark_of_openerOf?
  · intro hb
    obtain ⟨b', hb'⟩ := Option.isSome_iff_exists.1 ((d.openerOf?_isSome_iff t).2 ⟨b, hb⟩)
    have hr := h.distinct _ _ t rfl rfl (d.mark_of_openerOf? hb') hb
    rw [hb', Role.opener.inj hr]

/-- A text closes the bracket that it is the mark of. -/
theorem closerOf?_eq_some_iff {t : Text} {b : Bracket} :
    d.closerOf? t = some b ↔ d.mark (.closer b) = some t := by
  constructor
  · exact d.mark_of_closerOf?
  · intro hb
    obtain ⟨b', hb'⟩ := Option.isSome_iff_exists.1 ((d.closerOf?_isSome_iff t).2 ⟨b, hb⟩)
    have hr := h.distinct _ _ t rfl rfl (d.mark_of_closerOf? hb') hb
    rw [hb', Role.closer.inj hr]

/-- A text that is no opener's mark opens nothing. -/
theorem openerOf?_eq_none_iff {t : Text} :
    d.openerOf? t = none ↔ ∀ b, d.mark (.opener b) ≠ some t := by
  constructor
  · intro hn b hb
    rw [h.openerOf?_eq_some_iff.2 hb] at hn
    cases hn
  · intro hn
    cases ho : d.openerOf? t with
    | none => rfl
    | some b => exact absurd (d.mark_of_openerOf? ho) (hn b)

/-- A mark that is no bracket and no quote does not stop a run. -/
theorem isDelimiter_eq_false {r : Role} {t : Text} (hr : r.isNotation = true)
    (ho : ∀ b, r ≠ .opener b) (hc : ∀ b, r ≠ .closer b) (hq : r ≠ .quote)
    (ht : d.mark r = some t) : d.isDelimiter t = false := by
  rw [Bool.eq_false_iff, Ne, isDelimiter_iff]
  rintro (⟨b, hb⟩ | ⟨b, hb⟩ | hb)
  · exact ho b (h.distinct _ _ t hr rfl ht hb)
  · exact hc b (h.distinct _ _ t hr rfl ht hb)
  · exact hq (h.distinct _ _ t hr rfl ht hb)

/-- A text that is no closer's mark closes nothing. -/
theorem closerOf?_eq_none_iff {t : Text} :
    d.closerOf? t = none ↔ ∀ b, d.mark (.closer b) ≠ some t := by
  constructor
  · intro hn b hb
    rw [h.closerOf?_eq_some_iff.2 hb] at hn
    cases hn
  · intro hn
    cases ho : d.closerOf? t with
    | none => rfl
    | some b => exact absurd (d.mark_of_closerOf? ho) (hn b)

/-- Only a text of one character is the mark of a notation role. -/
theorem mark_ne_of_length {r : Role} {t : Text} (hr : r.isNotation = true) (ht : t.length ≠ 1) :
    d.mark r ≠ some t := by
  intro hm
  obtain ⟨c, rfl⟩ := h.single r t hr hm
  exact ht rfl

/-- A mark other than the sharp does not start with the sharp. -/
theorem not_startsSharp {r : Role} {t : Text} (hr : r.isNotation = true) (hne : r ≠ .sharp)
    (ht : d.mark r = some t) : ¬ d.StartsSharp t := by
  obtain ⟨c, rfl⟩ := h.single r t hr ht
  exact h.mark_ne hr rfl hne ht

/-- A blank plays no role in the notation. -/
theorem not_plays_of_blank {r : Role} {t : Text} (hr : r.isNotation = true)
    (hb : d.isBlank t = true) : d.plays r t = false := by
  refine (d.plays_eq_false_iff r t).2 fun hm => ?_
  rw [h.not_blank r t hr hm] at hb
  cases hb

/-- What plays one role in the notation plays no other one. -/
theorem not_plays {r r' : Role} {t : Text} (hr : r.isNotation = true) (hr' : r'.isNotation = true)
    (hne : r ≠ r') (ht : d.mark r = some t) : d.plays r' t = false :=
  (d.plays_eq_false_iff r' t).2 (h.mark_ne hr hr' hne ht)

/-- And it ends no line. -/
theorem not_plays_newline {r : Role} {t : Text} (hr : r.isNotation = true)
    (ht : d.mark r = some t) : d.plays .newline t = false :=
  (d.plays_eq_false_iff .newline t).2 (h.not_newline r t hr ht)

/-- No text without characters starts with the sharp. -/
theorem ne_nil_of_startsSharp {t : Text} (hs : d.StartsSharp t) : t ≠ [] := by
  rintro rfl
  exact h.mark_ne_of_length (r := .sharp) rfl (by simp) hs

/-- With more behind it a text starts with the sharp as before. -/
theorem startsSharp_append {t : Text} (hs : d.StartsSharp t) (u : Text) :
    d.StartsSharp (t ++ u) := by
  obtain ⟨c, t, rfl⟩ := List.exists_cons_of_ne_nil (h.ne_nil_of_startsSharp hs)
  exact hs

end Regular

/-! ## 3. The kind of a token -/

namespace Regular

variable (h : d.Regular)
include h

theorem kind_eq_opener_iff {t : Text} {b : Bracket} :
    d.kind t = .opener b ↔ d.mark (.opener b) = some t := by
  rw [d.kind_eq_opener_iff, h.openerOf?_eq_some_iff]

theorem kind_eq_quote_iff {t : Text} : d.kind t = .quote ↔ d.mark .quote = some t := by
  rw [d.kind_eq_quote_iff, h.openerOf?_eq_none_iff]
  constructor
  · rintro ⟨-, hq⟩
    exact hq
  · intro hq
    refine ⟨?_, hq⟩
    intro b
    exact h.mark_ne rfl rfl (by simp) hq

theorem kind_eq_sharp_iff {t : Text} : d.kind t = .sharp ↔ d.StartsSharp t := by
  rw [d.kind_eq_sharp_iff, h.openerOf?_eq_none_iff]
  constructor
  · rintro ⟨-, -, hs⟩
    exact hs
  · intro hs
    refine ⟨?_, ?_, hs⟩
    · intro b hb
      exact h.not_startsSharp rfl (by simp) hb hs
    · intro hq
      exact h.not_startsSharp rfl (by simp) hq hs

theorem kind_eq_closer_iff {t : Text} {b : Bracket} :
    d.kind t = .closer b ↔ d.mark (.closer b) = some t := by
  rw [d.kind_eq_closer_iff, h.openerOf?_eq_none_iff, h.closerOf?_eq_some_iff]
  constructor
  · rintro ⟨-, -, -, hc⟩
    exact hc
  · intro hc
    refine ⟨?_, h.mark_ne rfl rfl (by simp) hc, h.not_startsSharp rfl (by simp) hc, hc⟩
    intro b'
    exact h.mark_ne rfl rfl (by simp) hc

/-- A leaf is neither opener nor closer nor quote, and does not start with the sharp. -/
theorem kind_eq_leaf_iff {t : Text} :
    d.kind t = .leaf ↔
      (∀ b, d.mark (.opener b) ≠ some t) ∧ (∀ b, d.mark (.closer b) ≠ some t) ∧
        d.mark .quote ≠ some t ∧ ¬ d.StartsSharp t := by
  rw [d.kind_eq_leaf_iff, h.openerOf?_eq_none_iff, h.closerOf?_eq_none_iff]
  constructor
  · rintro ⟨ho, hq, hs, hc⟩
    exact ⟨ho, hc, hq, hs⟩
  · rintro ⟨ho, hc, hq, hs⟩
    exact ⟨ho, hq, hs, hc⟩

/-! ## 4. Regions and the string flag -/

/-- A text ends a region that another one starts: the quote its own, and each opener the one of
its bracket. -/
theorem regionCloser?_eq_some_iff {t closer : Text} :
    d.regionCloser? t = some closer ↔
      (d.mark .quote = some t ∧ d.mark .quote = some closer) ∨
        ∃ b, d.mark (.opener b) = some t ∧ d.mark (.closer b) = some closer := by
  by_cases hq : d.mark .quote = some t
  · have ho : ∀ b, d.mark (.opener b) ≠ some t := by
      intro b
      exact h.mark_ne rfl rfl (by simp) hq
    rw [d.regionCloser?_of_quote hq]
    simp [hq, ho]
  · rw [d.regionCloser?_of_ne_quote hq, Option.bind_eq_some_iff]
    simp [hq, h.openerOf?_eq_some_iff]

/-- A text that is neither opener nor quote starts no region. -/
theorem regionCloser?_eq_none_iff {t : Text} :
    d.regionCloser? t = none ↔ (∀ b, d.mark (.opener b) ≠ some t) ∧ d.mark .quote ≠ some t := by
  constructor
  · intro hn
    refine ⟨?_, ?_⟩
    · intro b hb
      obtain ⟨c, hc⟩ := h.exists_mark (r := .closer b) rfl rfl
      rw [h.regionCloser?_eq_some_iff.2 (.inr ⟨b, hb, hc⟩)] at hn
      cases hn
    · intro hq
      rw [d.regionCloser?_of_quote hq] at hn
      cases hn
  · rintro ⟨ho, hq⟩
    rw [d.regionCloser?_of_ne_quote hq, h.openerOf?_eq_none_iff.2 ho]
    rfl

/-- A token enters a string if it is the quote or a tag that ends in it. -/
theorem entersString_iff {t : Text} :
    d.entersString t = true ↔ d.mark .quote = some t ∨
      (d.StartsSharp t ∧ ∃ last, t.getLast? = some last ∧ d.mark .quote = some [last]) := by
  simp only [entersString, Bool.or_eq_true, Bool.and_eq_true, plays_iff]
  refine or_congr_right (and_congr_right fun hs => ?_)
  obtain ⟨init, last, rfl⟩ := (List.eq_nil_or_concat t).resolve_left (h.ne_nil_of_startsSharp hs)
  simp

/-- Of a token that is not the quote, only a tag that ends in the quote enters a string. -/
theorem entersString_eq_false {t : Text} (hq : d.mark .quote ≠ some t)
    (hs : d.StartsSharp t → ∀ last, t.getLast? = some last → d.mark .quote ≠ some [last]) :
    d.entersString t = false := by
  rw [Bool.eq_false_iff, Ne, h.entersString_iff]
  rintro (hq' | ⟨hs', last, hl, hq'⟩)
  · exact hq hq'
  · exact hs hs' last hl hq'

/-- The quote is a delimiter, so a text without delimiters neither is the quote nor holds it. -/
theorem ne_quote_of_not_delimiter {t : Text} (ht : ∀ c ∈ t, d.isDelimiter [c] = false) :
    d.mark .quote ≠ some t ∧ ∀ c ∈ t, d.mark .quote ≠ some [c] := by
  have hc : ∀ c ∈ t, d.mark .quote ≠ some [c] := by
    intro c hc hq
    have := (d.isDelimiter_iff [c]).2 (.inr (.inr hq))
    rw [ht c hc] at this
    cases this
  refine ⟨?_, hc⟩
  intro hq
  obtain ⟨c, rfl⟩ := h.single .quote t rfl hq
  exact hc c List.mem_cons_self hq

/-- A text without delimiters leaves the string flag as it is. -/
theorem inStringAfter_of_not_delimiter {t : Text} (ht : ∀ c ∈ t, d.isDelimiter [c] = false)
    (flag : Bool) : d.inStringAfter flag t = flag := by
  obtain ⟨hq, hc⟩ := h.ne_quote_of_not_delimiter ht
  cases flag with
  | false =>
    refine h.entersString_eq_false hq ?_
    intro _ last hl
    exact hc last (List.mem_of_getLast? hl)
  | true => simpa [inStringAfter, plays] using hq

/-- A tag sets the string flag if it ends in the quote. -/
theorem inStringAfter_of_startsSharp {t : Text} {e : Char} (hs : d.StartsSharp t)
    (hl : t.getLast? = some e) (flag : Bool) :
    d.inStringAfter flag t = (flag || d.plays .quote [e]) := by
  have hq : d.mark .quote ≠ some t := by
    intro hq
    exact h.not_startsSharp rfl (by simp) hq hs
  cases flag with
  | true => simpa [inStringAfter, plays] using hq
  | false =>
    have : d.entersString t = true ↔ d.plays .quote [e] = true := by
      rw [h.entersString_iff, or_iff_right hq, plays_iff]
      simp [hs, hl]
    simpa [inStringAfter] using Bool.eq_iff_iff.2 this

/-- A tag that does not end in the quote enters no string. -/
theorem entersString_of_startsSharp {t : Text} {last : Char} (hs : d.StartsSharp t)
    (hl : t.getLast? = some last) (hq : d.mark .quote ≠ some [last]) :
    d.entersString t = false := by
  have hflag : d.entersString t = (false || d.plays .quote [last]) :=
    h.inStringAfter_of_startsSharp hs hl false
  rw [hflag, Bool.false_or]
  simpa [plays] using hq

/-- Of the delimiters only the quote turns the string flag over. -/
theorem inStringAfter_of_delimiter {t : Text} (hd : d.isDelimiter t = true) (flag : Bool) :
    d.inStringAfter flag t = (flag ^^ d.plays .quote t) := by
  cases flag with
  | true => simp [inStringAfter]
  | false =>
    have : d.entersString t = true ↔ d.mark .quote = some t := by
      rw [h.entersString_iff, or_iff_left_iff_imp]
      rintro ⟨hs, -⟩
      rcases (d.isDelimiter_iff t).1 hd with ⟨b, hb⟩ | ⟨b, hb⟩ | hq
      · exact absurd hs (h.not_startsSharp rfl (by simp) hb)
      · exact absurd hs (h.not_startsSharp rfl (by simp) hb)
      · exact hq
    rw [← plays_iff] at this
    simpa [inStringAfter] using Bool.eq_iff_iff.2 this

end Regular

/-! ## 5. Regularity can be tested

There are finitely many roles, so a dialect is regular if a look at each pair of them says so. -/

/-- The mark of one role passes. -/
def fits (d : Dialect) (r : Role) : Bool :=
  match d.mark r with
  | none => r.isOptional
  | some t =>
    t.length == 1 && !d.isBlank t && d.mark .newline != some t &&
      Role.all.all fun r' => !r'.isNotation || r == r' || d.mark r' != some t

/-- Every notation role's mark passes. -/
def isRegular (d : Dialect) : Bool := Role.all.all fun r => !r.isNotation || d.fits r

/-- The test asks for what regularity says about one role. -/
theorem fits_iff {r : Role} :
    d.fits r = true ↔
      (r.isOptional = false → ∃ t, d.mark r = some t) ∧
        ∀ t, d.mark r = some t → t.length = 1 ∧ d.isBlank t = false ∧ d.mark .newline ≠ some t ∧
          ∀ r', r'.isNotation = true → d.mark r' = some t → r = r' := by
  unfold fits
  cases hm : d.mark r with
  | none => simp
  | some t =>
    have hall : (Role.all.all fun r' => !r'.isNotation || r == r' || d.mark r' != some t) = true ↔
        ∀ r', r'.isNotation = true → d.mark r' = some t → r = r' := by
      simp only [List.all_eq_true, Role.mem_all, true_imp_iff, Bool.or_eq_true, Bool.not_eq_true',
        beq_iff_eq, bne_iff_ne]
      refine forall_congr' fun r' => ?_
      cases r'.isNotation
      · simp
      · by_cases hm' : d.mark r' = some t <;> simp [hm']
    simp only [Bool.and_eq_true, hall, beq_iff_eq, Bool.not_eq_true', bne_iff_ne, and_assoc]
    simp

theorem isRegular_iff : d.isRegular = true ↔ d.Regular := by
  simp only [isRegular, List.all_eq_true, Role.mem_all, true_imp_iff, Bool.or_eq_true,
    Bool.not_eq_true', fits_iff]
  constructor
  · intro h
    have hr := fun (r : Role) (hn : r.isNotation = true) => (h r).resolve_left (by simp [hn])
    refine ⟨?_, ?_, ?_, ?_, ?_⟩
    · intro r hn
      exact (hr r hn).1
    · intro r t hn ht
      exact List.length_eq_one_iff.1 ((hr r hn).2 t ht).1
    · intro r r' t hn hn' ht ht'
      exact ((hr r hn).2 t ht).2.2.2 r' hn' ht'
    · intro r t hn ht
      exact ((hr r hn).2 t ht).2.1
    · intro r t hn ht
      exact ((hr r hn).2 t ht).2.2.1
  · intro h r
    cases hn : r.isNotation with
    | false => exact .inl rfl
    | true =>
      refine .inr ⟨h.set r hn, ?_⟩
      intro t ht
      refine ⟨?_, h.not_blank r t hn ht, h.not_newline r t hn ht, ?_⟩
      · exact List.length_eq_one_iff.2 (h.single r t hn ht)
      · intro r' hn' ht'
        exact h.distinct r r' t hn hn' ht ht'

instance (d : Dialect) : Decidable d.Regular := decidable_of_iff _ isRegular_iff

/-- The dialect of the plain table is regular; it has no comments. -/
theorem plain_regular : Table.plain.dialect.Regular := by decide

/-- The dialect for sources that span lines is regular. -/
theorem lines_regular : Table.lines.dialect.Regular := by decide

end Dialect

end SharpForms
