/-
# Which tags stay bare

A run that begins with the sharp takes in the blank or the delimiter that stops it, so its token
ends in that and is not bare.  Two things leave it as it is: the end of the text, and a comment
(`StopsTag`).  So where no comment stops a tag, only the last token of a text can be bare
(`bare_last_tokenize`); and no comment does where the tokens hold all of the text but blanks.
-/
import SharpForms.Proofs.Token.Kept
import SharpForms.Proofs.Token.Lexeme

namespace SharpForms

/-- Behind this text the character begins a comment that stops a tag. -/
def Dialect.StopsTag (d : Dialect) (t : Text) (c : Char) : Prop :=
  (d.scanned t).opensComment d [c] = true ∧
    ∃ r, (d.scanned t).phase = .run r ∧ d.plays .sharp r.head = true

/-! ## 1. The scanner -/

namespace Scanner

variable {d : Dialect} {s s' : Scanner} {c : Char}

/-- A run has a first character, and none of the tokens found is bare. -/
structure NoneBare (d : Dialect) (s : Scanner) : Prop where
  head : ∀ r, s.phase = .run r → ∃ e, r.head = [e]
  tokens : ∀ t ∈ s.tokens, ¬ d.Bare t.text

/-- A run that does not begin with the sharp is no tag. -/
theorem not_bare_of_head {r : Run} {e : Char} (hr : r.head = [e])
    (hs : d.plays .sharp r.head = false) : ¬ d.Bare r.text := by
  rintro ⟨hsharp, -⟩
  have htake : r.text.take 1 = r.head := by simp [Run.text, Run.units, hr]
  rw [Dialect.StartsSharp, htake, ← Dialect.plays_iff, hs] at hsharp
  cases hsharp

/-- A delimiter is not bare. -/
theorem not_bare_of_delimiter (hc : d.isDelimiter [c] = true) : ¬ d.Bare [c] :=
  Dialect.not_bare_concat (t := []) (.inr hc)

/-- A character leaves no bare token, unless it begins a comment that stops a tag. -/
theorem Effect.noneBare (he : Effect d s [c] s') (hs : s.NoneBare d)
    (hc : ∀ r, s.phase = .run r → s.opensComment d [c] = true → d.plays .sharp r.head = false) :
    s'.NoneBare d := by
  have concat : ∀ t : Token, ¬ d.Bare t.text → ∀ t' ∈ s.tokens ++ [t], ¬ d.Bare t'.text := by
    intro t ht
    exact List.forall_mem_append.2 ⟨hs.tokens, by simpa using ht⟩
  cases he with
  | skipComment | endComment | startComment | skipBlank | header =>
    exact ⟨by simp, by simpa [tokens] using hs.tokens⟩
  | startRun =>
    refine ⟨?_, by simpa [tokens] using hs.tokens⟩
    intro r hr
    obtain rfl := Phase.run.inj hr
    exact ⟨c, rfl⟩
  | growRun r hp =>
    refine ⟨?_, by simpa [tokens] using hs.tokens⟩
    intro r' hr
    obtain rfl := Phase.run.inj hr
    exact hs.head r hp
  | delimiter _ _ _ hd =>
    refine ⟨by simp, ?_⟩
    rw [tokens_emit, tokens_advance]
    exact concat _ (not_bare_of_delimiter hd)
  | commentAfterRun r hp _ hcomment =>
    obtain ⟨e, he⟩ := hs.head r hp
    refine ⟨by simp, ?_⟩
    simpa [tokens] using concat r.token (not_bare_of_head he (hc r hp hcomment))
  | glue r hp _ _ hbd =>
    refine ⟨by simp, ?_⟩
    rw [tokens_emit, tokens_advance]
    refine concat _ ?_
    rw [Run.text_token, Run.text_push]
    exact Dialect.not_bare_concat hbd
  | blankAfterRun r hp _ _ _ hsharp =>
    obtain ⟨e, he⟩ := hs.head r hp
    refine ⟨by simp, ?_⟩
    rw [tokens_emit, tokens_advance]
    exact concat _ (not_bare_of_head he hsharp)
  | delimiterAfterRun r hp _ _ _ hd hsharp =>
    obtain ⟨e, he⟩ := hs.head r hp
    refine ⟨by simp, ?_⟩
    rw [tokens_emit, tokens_emit, tokens_advance]
    refine List.forall_mem_append.2 ⟨concat _ (not_bare_of_head he hsharp), ?_⟩
    simpa using not_bare_of_delimiter hd

/-- The end of the text adds one token at most. -/
theorem NoneBare.pairwise_finish (hs : s.NoneBare d) :
    ((s.finish d).tokens.map Token.text).Pairwise fun t _ => ¬ d.Bare t := by
  have hnone : ∀ t ∈ s.tokens.map Token.text, ¬ d.Bare t := List.forall_mem_map.2 hs.tokens
  have hfound : (s.tokens.map Token.text).Pairwise fun t _ => ¬ d.Bare t :=
    List.pairwise_iff_forall_sublist.2 fun htu => hnone _ (htu.subset List.mem_cons_self)
  unfold finish
  split
  · rw [tokens_emit, List.map_append, List.map_singleton]
    refine List.pairwise_append.2 ⟨hfound, List.pairwise_singleton _ _, ?_⟩
    intro t ht _ _
    exact hnone t ht
  · exact hfound

end Scanner

/-! ## 2. Texts -/

namespace Dialect

variable {d : Dialect} {t : Text}

/-- Where no comment stops a tag, no token is found bare. -/
theorem noneBare_scanned_append {t₁ t₂ : Text} (hs : (d.scanned t₁).NoneBare d)
    (ht : ∀ u c v, t₂ = u ++ c :: v → ¬ d.StopsTag (t₁ ++ u) c) :
    (d.scanned (t₁ ++ t₂)).NoneBare d := by
  induction t₂ generalizing t₁ with
  | nil => rwa [List.append_nil]
  | cons c t₂ ih =>
    have hsplit : t₁ ++ c :: t₂ = (t₁ ++ [c]) ++ t₂ := by simp
    rw [hsplit]
    refine ih ?_ ?_
    · rw [d.scanned_concat]
      refine (Scanner.step_effect d _ [c]).noneBare hs ?_
      intro r hp hcomment
      rw [Bool.eq_false_iff]
      intro hsharp
      refine ht [] c t₂ rfl ?_
      rw [List.append_nil]
      exact ⟨hcomment, r, hp, hsharp⟩
    · rintro u e v rfl
      have := ht (c :: u) e v rfl
      rwa [List.append_assoc]

/-- **Where no comment stops a tag, only the last token of a text can be bare.** -/
theorem bare_last_tokenize (ht : ∀ t₁ c t₂, t = t₁ ++ c :: t₂ → ¬ d.StopsTag t₁ c) :
    ((d.tokenize (Text.units t)).map Token.text).Pairwise fun t _ => ¬ d.Bare t := by
  have hnil : (d.scanned []).NoneBare d := ⟨nofun, nofun⟩
  exact (noneBare_scanned_append hnil ht).pairwise_finish

/-- Without a comment mark there are no comments. -/
theorem not_stopsTag_of_mark (hcomment : d.mark .comment = none) (t : Text) (c : Char) :
    ¬ d.StopsTag t c := by
  rintro ⟨hc, -⟩
  simp [Scanner.opensComment, plays, hcomment] at hc

/-- No comment stops a tag in a text whose tokens hold all of it but blanks. -/
theorem not_stopsTag_of_solid (h : d.Regular) {t₁ t₂ : Text} {c : Char}
    (hkept : d.solid (t₁ ++ c :: t₂) ≤
      d.solid ((d.tokenize (Text.units (t₁ ++ c :: t₂))).map Token.text).flatten) :
    ¬ d.StopsTag t₁ c := by
  rintro ⟨hcomment, r, hp, -⟩
  have hsplit : t₁ ++ c :: t₂ = (t₁ ++ [c]) ++ t₂ := by simp
  rw [hsplit] at hkept
  refine phase_ne_comment h hkept ?_
  rw [d.scanned_concat]
  -- A comment mark behind a run begins a comment or a header line.
  have he := Scanner.step_effect d (d.scanned t₁) [c]
  generalize (d.scanned t₁).step d [c] = s' at he ⊢
  cases he with
  | header | commentAfterRun => rfl
  | growRun _ _ _ hc | glue _ _ _ hc | blankAfterRun _ _ _ hc | delimiterAfterRun _ _ _ hc =>
    rw [hcomment] at hc
    cases hc
  | skipComment hp' | endComment hp' | startComment hp' | skipBlank hp' | delimiter hp'
  | startRun hp' => simp [hp] at hp'

end Dialect
end SharpForms
