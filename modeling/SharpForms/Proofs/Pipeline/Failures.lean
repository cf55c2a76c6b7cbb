/-
# How a text can fail

A text has expressions, or its notation is at fault: a bracket, a string or a region is not closed,
a closer closes nothing, or a tag is unknown.  The other failures that the stages know of need an
empty token, a node that is no form, or a rule that does not fit its node, and none of these comes
from a text:

* a token stands on a stretch of the text, so it has a character (`Covered.text_ne_nil`), and the
  reader names no token that is not in the list (`blamed_of_read`);
* the forms of such a token list are of the classes that the usual rules cover, and their literals
  have a character, so that only a tag can be the defect (`Forest.defect?_of_mem`).

It does not matter how the marks of the dialect are chosen.
-/
import SharpForms.Proofs.Expression.TagTable
import SharpForms.Proofs.Form.Descent
import SharpForms.Proofs.Form.Tiling
import SharpForms.Proofs.Pipeline.Joined
import SharpForms.Proofs.Token.Coverage

namespace SharpForms

/-- The failure is a fault of the notation. -/
def Failure.IsSyntax : Failure → Prop
  | .read (.unclosedGroup ..) | .read (.unclosedString _) | .read (.unclosedRegion ..)
  | .read (.strayCloser ..) | .walk (.unknownTag ..) => True
  | .source _ | .read (.emptyTag _) | .walk (.unknownNode _) | .walk .emptyLiteral
  | .walk (.unfitRule _) => False

/-! ## 1. The reader -/

/-- Numbering makes no token empty. -/
theorem Cell.text_ne_nil_of_mem_number {i : Nat} {ts : List Token} {c : Cell}
    (hts : ∀ t ∈ ts, t.text ≠ []) (hc : c ∈ number i ts) : c.text ≠ [] := by
  have hmem : c.token ∈ (number i ts).map token := List.mem_map_of_mem hc
  rw [map_token_number] at hmem
  exact hts c.token hmem

/-- Without empty tokens a token list fails to read only by its notation. -/
theorem Dialect.isSyntax_of_read {d : Dialect} {ts : List Token} {e : ReadError}
    (hts : ∀ t ∈ ts, t.text ≠ []) (h : (d.read ts).result = .error e) :
    (Failure.read e).IsSyntax := by
  obtain ⟨hfits, hmem⟩ := blamed_of_read h
  cases e with
  | emptyTag c => exact Cell.text_ne_nil_of_mem_number hts hmem hfits.2
  | unclosedGroup | unclosedString | unclosedRegion | strayCloser => trivial

/-! ## 2. The walk -/

theorem Node.preorderAll_append (ns ms : List Node) :
    preorderAll (ns ++ ms) = preorderAll ns ++ preorderAll ms := by
  induction ns with
  | nil => rfl
  | cons n ns ih => simp [preorderAll, ih]

/-- The only defect of a form is that its tag is unknown. -/
theorem Forest.defect?_of_mem {L : Lexicon} {cs : List Cell} {ns : List Node} {tags : TagTable}
    (h : Forest L cs ns) (hcs : ∀ c ∈ cs, c.text ≠ []) :
    ∀ n ∈ Node.preorderAll ns, ∀ e, n.defect? tags = some e →
      ∃ tag at_, e = .unknownTag tag at_ := by
  have tagged : ∀ tag items closer at_ e,
      (Node.dispatch tag items closer at_).defect? tags = some e →
        ∃ tag at_, e = WalkError.unknownTag tag at_ := by
    intro tag items closer at_ e he
    rw [Node.defect?] at he
    split at he
    · cases he
    · exact ⟨tag, at_.place, (Option.some.inj he).symm⟩
  induction h with
  | empty => simp [Node.preorderAll]
  | append _ _ ih ih' =>
    rw [Node.preorderAll_append]
    rw [List.forall_mem_append] at hcs ⊢
    exact ⟨ih hcs.1, ih' hcs.2⟩
  | @literal c _ =>
    have hc : c.text ≠ [] := hcs c (by simp)
    simp [Node.preorderAll, Node.preorder, Node.defect?, hc]
  | string => simp [Node.preorderAll, Node.preorder, Node.defect?]
  | tag =>
    simp only [Node.preorderAll, Node.preorder, List.append_nil, List.mem_singleton, forall_eq]
    exact tagged _ _ _ _
  | group _ _ _ ih =>
    simp only [Node.preorderAll, Node.preorder, List.append_nil, List.forall_mem_cons]
    refine ⟨by simp [Node.defect?], ih ?_⟩
    intro x hx
    exact hcs x (by simp [hx])
  | region _ _ _ ih =>
    simp only [Node.preorderAll, Node.preorder, List.append_nil, List.forall_mem_cons]
    refine ⟨tagged _ _ _ _, ih ?_⟩
    intro x hx
    exact hcs x (by simp [hx])

/-- Forms without empty tokens fail to be walked only by their tags. -/
theorem Forest.isSyntax_of_walkAll {L : Lexicon} {cs : List Cell} {ns : List Node} {e : WalkError}
    (h : Forest L cs ns) (hcs : ∀ c ∈ cs, c.text ≠ [])
    (he : (Rules.usual.walkAll ns).result = .error e) : (Failure.walk e).IsSyntax := by
  rw [Rules.walkAll_eq_evalAll, Rules.usual_eq_withTags, Rules.eval_withTags_all,
    ← failure?_eq_some_iff, failure?_expressionAll] at he
  obtain ⟨n, hn, hdefect⟩ := List.exists_of_findSome?_eq_some he
  obtain ⟨tag, at_, rfl⟩ := h.defect?_of_mem hcs n hn e hdefect
  trivial

/-- So do the forms that are read off a token list without empty tokens. -/
theorem Dialect.isSyntax_of_walk {d : Dialect} {ts : List Token} {ns : List Node} {e : WalkError}
    (hts : ∀ t ∈ ts, t.text ≠ []) (hread : (d.read ts).result = .ok ns)
    (he : (Rules.usual.walkAll ns).result = .error e) : (Failure.walk e).IsSyntax :=
  (Dialect.read_eq_ok_iff.1 hread).isSyntax_of_walkAll
    (fun _ hc => Cell.text_ne_nil_of_mem_number hts hc) he

/-! ## 3. Texts -/

/-- No token of a text is empty. -/
theorem Dialect.text_ne_nil_of_tokenize (d : Dialect) (t : Text) :
    ∀ tok ∈ d.tokenize (Text.units t), tok.text ≠ [] := by
  have hunits : ∀ u ∈ Text.units t, u ≠ [] := by simp [Text.units]
  exact (d.covered_tokenize (Text.units t)).text_ne_nil hunits

/-- **From a text come expressions or a fault of the notation, and nothing else.**  Take any
dialect, whatever its marks are, and any text without empty units.

* The text parses, or it fails by its notation.
* Its tokens are read as by recursive descent, and what is read on the outermost level, of the text
  or of a region, never stops in front of a closer.
* If they read, then the forms stand on all of them. -/
theorem parse_ok_or_isSyntax (d : Dialect) {us : List Text} (hus : ∀ u ∈ us, u ≠ []) :
    ((∃ xs, (Stage.run d Rules.usual .parse us).result = .ok (.nodes xs)) ∨
        ∃ f, (Stage.run d Rules.usual .parse us).result = .error f ∧ f.IsSyntax) ∧
      ((d.read (d.tokenize us)).result =
          (d.level none (Cell.number 0 (d.tokenize us))).map Prod.fst ∧
        ∀ cs ns rest, d.level none cs = .ok (ns, rest) → rest = []) ∧
      ∀ ns, (d.read (d.tokenize us)).result = .ok ns → Tiles 0 ns (d.tokenize us).length := by
  have hts : ∀ t ∈ d.tokenize us, t.text ≠ [] := (d.covered_tokenize us).text_ne_nil hus
  refine ⟨?_, ⟨d.read_eq_level _, ?_⟩, ?_⟩
  · rw [Stage.result_parse]
    cases hread : (d.read (d.tokenize us)).result with
    | error e => exact .inr ⟨.read e, rfl, Dialect.isSyntax_of_read hts hread⟩
    | ok ns =>
      have hf := Dialect.read_eq_ok_iff.1 hread
      cases hwalk : (Rules.usual.walkAll ns).result with
      | error e =>
        refine .inr ⟨.walk e, ?_, hf.isSyntax_of_walkAll ?_ hwalk⟩
        · simp [Except.bind, Except.map, hwalk]
        · intro c hc
          exact Cell.text_ne_nil_of_mem_number hts hc
      | ok xs => exact .inl ⟨xs, by simp [Except.bind, Except.map, hwalk]⟩
  · intro cs ns rest h
    exact Dialect.rest_of_level_none h
  · intro ns hread
    simpa using (Dialect.read_eq_ok_iff.1 hread).tiles (numbered_number 0 _)

/-- The quote is also the opener of lists, lists end in a text of two characters, and the sharp is
empty, which no token is.  So a list is no string, and where a list is not closed that is the
fault. -/
theorem parse_colliding_marks :
    let d := Table.dialect
      [.mark .quote (some ['(']), .mark (.closer .round) (some [')', ')']), .mark .sharp (some [])]
    let us : List Text := [['('], ['a'], [')', ')']]
    (∀ u ∈ us, u ≠ []) ∧
      (Stage.run d Rules.usual .parse us).result = .ok (.nodes [.call
        [.leaf .symbol ['a'] ⟨some 1, some 1, some 1, some 2⟩]
          ⟨some 0, some 2, some 1, some 1⟩]) ∧
      (∃ ns, (d.read (d.tokenize us)).result = .ok ns ∧ Tiles 0 ns 3) ∧
      ∃ f, (Stage.run d Rules.usual .parse (us.take 2)).result = .error f ∧ f.IsSyntax := by
  intro d us
  have hus : ∀ u ∈ us, u ≠ [] := by decide
  have hus' : ∀ u ∈ us.take 2, u ≠ [] := by decide
  have htok : d.tokenize us =
      [⟨['('], some 1, some 1⟩, ⟨['a'], some 1, some 2⟩, ⟨[')', ')'], some 1, some 3⟩] := by decide
  have htok' : d.tokenize (us.take 2) = [⟨['('], some 1, some 1⟩, ⟨['a'], some 1, some 2⟩] := by
    decide
  have hopener : d.kind ['('] = .opener .round := by decide
  have hliteral : d.kind ['a'] = .leaf := by decide
  have hcloser : d.kind [')', ')'] = .closer .round := by decide
  have ha : Forest d.byKind _ _ := @Forest.literal _ ⟨1, ⟨['a'], some 1, some 2⟩⟩ hliteral
  have hlist : Forest d.byKind _ _ :=
    @Forest.group _ .round ⟨0, ⟨['('], some 1, some 1⟩⟩ ⟨2, ⟨[')', ')'], some 1, some 3⟩⟩ _ _
      hopener ha hcloser
  have hread : (d.read (d.tokenize us)).result =
      .ok [.group .round [.leaf .literal ['a'] ⟨some 1, some 1, some 1, some 2⟩]
        ⟨some 0, some 2, some 1, some 1⟩] := by
    rw [htok]
    exact Dialect.read_eq_ok_iff.2 hlist
  have hopen : (Stage.run d Rules.usual .parse (us.take 2)).result =
      .error (.read (.unclosedGroup .round ⟨0, ⟨['('], some 1, some 1⟩⟩)) := by
    rw [Stage.result_parse, htok', Dialect.read, Cell.number_cons, Cell.number_cons,
      Dialect.readFrom_opener hopener, Dialect.readFrom_literal hliteral, Traced.result_emitForm,
      Cell.number_nil, Dialect.readFrom_unclosedGroup]
    rfl
  refine ⟨hus, ?_, ⟨_, hread, ?_⟩, ?_⟩
  · have hwalk : (Rules.usual.walkAll [.group .round
        [.leaf .literal ['a'] ⟨some 1, some 1, some 1, some 2⟩]
        ⟨some 0, some 2, some 1, some 1⟩]).result = .ok [.call
          [.leaf .symbol ['a'] ⟨some 1, some 1, some 1, some 2⟩]
          ⟨some 0, some 2, some 1, some 1⟩] := by
      rw [Rules.walkAll_eq_evalAll]
      rfl
    simp [Stage.result_parse, hread, Except.bind, Except.map, hwalk]
  · simpa [htok] using (parse_ok_or_isSyntax d hus).2.2 _ hread
  · obtain ⟨xs, hxs⟩ | hfail := (parse_ok_or_isSyntax d hus').1
    · rw [hopen] at hxs
      cases hxs
    · exact hfail

end SharpForms
