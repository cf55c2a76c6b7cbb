/-
# Which blank is used does not matter

Put some blanks of a text in place of others.  The tokens stay where they are, the forms keep their
shape and their places, an error stays the same error, and expressions stay the same
(`stages_of_reblanked`).  What changes is what tags and strings have taken in: a tag that a blank
has stopped keeps the blank, and a string keeps its tags.

No such tag gets as far as an expression, since the only tag that the usual rules name ends in an
opener; so only strings with a sharp in them can make a difference there.
-/
import SharpForms.Proofs.Form.Blanks
import SharpForms.Proofs.Pipeline.ReadBack

namespace SharpForms

/-- The blanks of the plain dialect do not end lines. -/
theorem Dialect.plain_blanksInline : Table.plain.dialect.BlanksInline := by
  intro c hc
  refine (Dialect.plays_eq_false_iff _ .newline [c]).2 fun hm => ?_
  obtain rfl : '\n' = c := by simpa using Option.some.inj hm
  revert hc
  decide

/-- The only tag among forms that become something does not end in a blank. -/
theorem Desugars.getLast?_not_blank {ns es : List Node} (h : Desugars ns es) {t : Text}
    {items : List Node} {closer : Option Text} {at_ : Bounds}
    (ht : .dispatch t items closer at_ ∈ Node.postorderAll ns) :
    ∀ e ∈ t.getLast?, Table.plain.dialect.isBlank [e] = false := by
  rw [h.tag_eq ht]
  rintro e ⟨⟩
  decide

/-- **Which blank is used does not matter**, in the plain dialect.

* There are as many tokens, in the same places, and each is the same, or a tag that has taken in
  another blank.
* The forms are of one shape and in the same places, and differ only in such tags and in the strings
  that hold them; or reading fails both times, with the same error.
* If the one text parses, and no string holds the sharp, the other parses to the same
  expressions. -/
theorem stages_of_reblanked {t u : Text} (h : Table.plain.dialect.Reblanked t u) :
    let d := Table.plain.dialect
    List.Forall₂ (Token.Alike d.TokenReblanked) (d.tokenize (Text.units t))
        (d.tokenize (Text.units u)) ∧
      ((∃ ns ms, (d.read (d.tokenize (Text.units t))).result = .ok ns ∧
          (d.read (d.tokenize (Text.units u))).result = .ok ms ∧ FormsReblanked d ns ms) ∨
        ∃ e, (d.read (d.tokenize (Text.units t))).result = .error e ∧
          (d.read (d.tokenize (Text.units u))).result = .error e) ∧
      ∀ es, (Stage.run d Rules.usual .parse (Text.units t)).result = .ok (.nodes es) →
        (∀ text at_, .string text at_ ∈ Node.postorderAll es → '#' ∉ text) →
        (Stage.run d Rules.usual .parse (Text.units u)).result = .ok (.nodes es) := by
  intro d
  have hd := Dialect.plain_regular
  have htokens := Dialect.tokenize_reblanked hd Dialect.plain_blanksInline h
  have hread := Dialect.read_reblanked hd htokens
  refine ⟨htokens, hread, ?_⟩
  intro es hparse hs
  obtain ⟨ns, hns, hx⟩ := Stage.parse_usual_eq_ok_iff.1 hparse
  have hsharpless : Sharpless d ns :=
    fun text at_ hm => sharpless_of_mark rfl hs text at_ (hx.string_mem hm)
  rcases hread with ⟨ns', ms, hns', hms, hforms⟩ | ⟨e, he, -⟩
  · obtain rfl : ns = ns' := Except.ok.inj (hns.symm.trans hns')
    rw [hforms.eq hd hsharpless fun t at_ hm => hx.getLast?_not_blank hm] at hms
    exact Stage.parse_usual_eq_ok_iff.2 ⟨ns, hms, hx⟩
  · rw [he] at hns
    cases hns

/-- A string with a tag that a blank has stopped becomes another string.  In a set with a string
that holds no tag the blanks make no difference. -/
theorem stages_of_reblanked_set :
    let d := Table.plain.dialect
    let string (text : Text) : Node := .string text ⟨some 0, some 2, some 1, some 1⟩
    let set : Bounds := ⟨some 0, some 5, some 1, some 1⟩
    let es : List Node := [.call [.leaf .symbol "hash-set".toList set,
      .string ['a', 'b'] ⟨some 1, some 4, some 1, some 4⟩] set]
    d.Reblanked ['"', '#', ' ', '"'] ['"', '#', ',', '"'] ∧
      (d.read (d.tokenize (Text.units ['"', '#', ' ', '"']))).result = .ok [string ['#', ' ']] ∧
      (∃ ms, (d.read (d.tokenize (Text.units ['"', '#', ',', '"']))).result = .ok ms ∧
        FormsReblanked d [string ['#', ' ']] ms) ∧
      d.Reblanked "#\x7b \"a b\",\x7d".toList "#\x7b,\"a,b\" \x7d".toList ∧
      (Stage.run d Rules.usual .parse (Text.units "#\x7b \"a b\",\x7d".toList)).result =
        .ok (.nodes es) ∧
      (Stage.run d Rules.usual .parse (Text.units "#\x7b,\"a,b\" \x7d".toList)).result =
        .ok (.nodes es) := by
  intro d string set es
  let cell (i : Nat) (t : Text) (char : Nat) : Cell := ⟨i, ⟨t, some 1, some char⟩⟩
  have hquote : d.kind ['"'] = .quote := by decide
  have htag : d.Reblanked ['"', '#', ' ', '"'] ['"', '#', ',', '"'] := by decide
  have hset : d.Reblanked "#\x7b \"a b\",\x7d".toList "#\x7b,\"a,b\" \x7d".toList := by decide
  have hstring : (d.read (d.tokenize (Text.units ['"', '#', ' ', '"']))).result =
      .ok [string ['#', ' ']] := by
    have htok : d.tokenize (Text.units ['"', '#', ' ', '"']) =
        [⟨['"'], some 1, some 1⟩, ⟨['#', ' '], some 1, some 2⟩, ⟨['"'], some 1, some 4⟩] := by
      decide
    rw [htok]
    exact Dialect.read_eq_ok_iff.2 <| @Forest.string _ (cell 0 ['"'] 1) (cell 2 ['"'] 4)
      [cell 1 ['#', ' '] 2] hquote
      (by decide : ∀ x ∈ [cell 1 ['#', ' '] 2], Table.plain.dialect.kind x.text ≠ .quote) hquote
  have hparse : (Stage.run d Rules.usual .parse
      (Text.units "#\x7b \"a b\",\x7d".toList)).result = .ok (.nodes es) := by
    have htok : d.tokenize (Text.units "#\x7b \"a b\",\x7d".toList) =
        [⟨['#', '\x7b'], some 1, some 1⟩, ⟨['"'], some 1, some 4⟩, ⟨['a'], some 1, some 5⟩,
          ⟨['b'], some 1, some 7⟩, ⟨['"'], some 1, some 8⟩, ⟨['\x7d'], some 1, some 10⟩] := by
      decide
    have hab : Forest d.byKind _ _ := @Forest.string _ (cell 1 ['"'] 4) (cell 4 ['"'] 8)
      [cell 2 ['a'] 5, cell 3 ['b'] 7] hquote
      (by decide : ∀ x ∈ [cell 2 ['a'] 5, cell 3 ['b'] 7],
        Table.plain.dialect.kind x.text ≠ .quote) hquote
    have hforest : Forest d.byKind _ _ :=
      @Forest.region _ (cell 0 ['#', '\x7b'] 1) (cell 5 ['\x7d'] 10) _ _
        ⟨by decide, '\x7b', rfl, by decide⟩ (by decide) hab
    refine Stage.parse_usual_eq_ok_iff.2 ⟨_, ?_, @Desugars.set _ _ (some ['\x7d']) set .string⟩
    rw [htok]
    exact Dialect.read_eq_ok_iff.2 hforest
  have hs : ∀ text at_, .string text at_ ∈ Node.postorderAll es → '#' ∉ text := by
    intro text at_ hm
    obtain ⟨rfl, -⟩ : text = ['a', 'b'] ∧ at_ = ⟨some 1, some 4, some 1, some 4⟩ := by
      simpa [es, Node.postorderAll, Node.postorder] using hm
    decide
  refine ⟨htag, hstring, ?_, hset, hparse, (stages_of_reblanked hset).2.2 es hparse hs⟩
  rcases (stages_of_reblanked htag).2.1 with ⟨ns, ms, hns, hms, hforms⟩ | ⟨e, he, -⟩
  · obtain rfl := Except.ok.inj (hstring.symm.trans hns)
    exact ⟨ms, hms, hforms⟩
  · cases hstring.symm.trans he

end SharpForms
