/-
# Joining two texts with a newline joins what they parse to

If a text parses, then a newline and another text behind it parse to the expressions of the first
and then those of the second, moved down by the tokens and the lines of the first; or they fail as
the second does, with the place in the error moved (`parse_append_newline`).

That the first text parses is needed at the seam.  The scanner by itself could be inside a string
there, or in a run that would take the newline in.  The reader excludes the first: what it reads
leaves the string flag false.  The walk excludes the second: the tag that the run would become has
no delimiter in it, and every tag that the rules name has one (`settled_of_walkAll`).
-/
import SharpForms.Dialect.Table
import SharpForms.Proofs.Expression.Joined
import SharpForms.Proofs.Form.Joined
import SharpForms.Proofs.Token.Joined

namespace SharpForms

/-! ## 1. The seam -/

section

variable {d : Dialect} {r : Rules} {t u : Text} {ns es : List Node} {c : Char}

/-- The rules name only tags with a delimiter in them, such as an opener at the end. -/
def Rules.TagsDelimited (r : Rules) (d : Dialect) : Prop :=
  ∀ entry ∈ r.tags, ∃ c ∈ entry.1, d.isDelimiter [c] = true

/-- **A text that reads and walks settles the scanner.** -/
theorem settled_of_walkAll (h : d.Regular) (htags : r.TagsDelimited d)
    (hread : (d.read (d.tokenize (Text.units t))).result = .ok ns)
    (hwalk : (r.walkAll ns).result = .ok es) : (d.scanned t).Settled d := by
  refine ⟨Dialect.inString_finish_eq_false h hread, ?_⟩
  intro run hp
  rw [Bool.eq_false_iff]
  intro hs
  -- The run would be the last token, and so the last form, which is a tag.
  have hts : d.tokenize (Text.units t) = (d.scanned t).tokens ++ [run.token] := by
    simp [d.tokenize_eq, Scanner.finish, hp]
  have hforest := Dialect.read_eq_ok_iff.1 hread
  rw [hts, ← Dialect.byMarks_eq_byKind h, Cell.number_append] at hforest
  obtain ⟨ms, b, rfl⟩ := hforest.exists_tag_of_startsSharp h List.getLast?_concat
    (Scanner.startsSharp_of_run h hs)
  -- The rules would have to name that tag.
  obtain ⟨x, hx⟩ := Rules.exists_walk_of_mem hwalk (List.mem_append_right ms List.mem_cons_self)
  obtain ⟨head, hmem⟩ := Rules.exists_tag_of_walk hx
  obtain ⟨c, hc, hd⟩ := htags _ hmem
  have hnot := (((d.tidy_scanned h t).run run hp).2 c hc).2
  rw [hd] at hnot
  cases hnot

/-! ## 2. The stages behind the seam -/

/-- What the expressions of a text are, in terms of the two stages behind the scanner. -/
theorem Stage.result_parse (us : List Text) :
    (Stage.run d r .parse us).result =
      ((d.read (d.tokenize us)).result.mapError Failure.read).bind fun ns =>
        ((r.walkAll ns).result.mapError Failure.walk).map Product.nodes := by
  simp only [Stage.run, Dialect.scan, Traced.result_andThen, Traced.result_emit, Traced.result_done,
    Stage.ofTokens, Traced.result_map, Dialect.forms, Traced.result_mapError, Rules.expressions,
    Except.bind]
  cases (d.read (d.tokenize us)).result <;> rfl

/-- Parsing gives nodes, or the reader's error, or the walk's. -/
theorem Stage.parse_outcome (us : List Text) :
    (∃ xs, (Stage.run d r .parse us).result = .ok (.nodes xs)) ∨
      (∃ e, (Stage.run d r .parse us).result = .error (.read e)) ∨
        ∃ e, (Stage.run d r .parse us).result = .error (.walk e) := by
  rw [result_parse]
  cases (d.read (d.tokenize us)).result with
  | error e => exact .inr (.inl ⟨e, rfl⟩)
  | ok ns =>
    cases hwalk : (r.walkAll ns).result with
    | error e => exact .inr (.inr ⟨e, by simp [Except.bind, Except.map, hwalk]⟩)
    | ok xs => exact .inl ⟨xs, by simp [Except.bind, Except.map, hwalk]⟩

/-- What parsing gives, moved, with other expressions in front. -/
def parsedBehind (o : Offset) (front : List Node) :
    Except Failure Product → Except Failure Product
  | .ok (.nodes xs) => .ok (.nodes (front ++ Node.moveAll o xs))
  | .ok (.tokens ts) => .ok (.tokens (ts.map (Token.move o)))
  | .error e => .error (e.move o)

/-- What a text that parses has been read as. -/
theorem Stage.exists_forms_of_parse
    (ht : (Stage.run d r .parse (Text.units t)).result = .ok (.nodes es)) :
    ∃ ns, (d.read (d.tokenize (Text.units t))).result = .ok ns ∧
      (r.walkAll ns).result = .ok es := by
  rw [result_parse] at ht
  cases hread : (d.read (d.tokenize (Text.units t))).result with
  | error e => rw [hread] at ht; cases ht
  | ok ns =>
    rw [hread] at ht
    cases hwalk : (r.walkAll ns).result with
    | error e => simp [Except.bind, Except.map, hwalk] at ht
    | ok xs =>
      obtain rfl : xs = es := by
        simpa [Except.bind, Except.map, hwalk] using ht
      exact ⟨ns, rfl, hwalk⟩

/-- **A text behind one that parses, and a newline.** -/
theorem Stage.parse_behind (h : d.Regular) (hr : r.withBounds = false) (htags : r.TagsDelimited d)
    (hn : d.plays .newline [c] = true) (hb : d.isBlank [c] = true)
    (ht : (Stage.run d r .parse (Text.units t)).result = .ok (.nodes es)) :
    (Stage.run d r .parse (Text.units (t ++ c :: u))).result =
      parsedBehind ⟨(d.tokenize (Text.units t)).length, d.newlines t + 1⟩ es
        (Stage.run d r .parse (Text.units u)).result := by
  obtain ⟨ns, hread, hwalk⟩ := exists_forms_of_parse ht
  have hs := settled_of_walkAll h htags hread hwalk
  rw [result_parse, result_parse, Dialect.tokenize_append_newline h hs hn hb,
    Dialect.read_append hread rfl]
  cases (d.read (d.tokenize (Text.units u))).result with
  | error e => rfl
  | ok ms =>
    simp only [resultBehind, Except.map, Traced.except_mapError_ok, Except.bind,
      List.reverse_reverse, Rules.walkAll_append, hwalk, Rules.walkAll_move hr]
    cases (r.walkAll ms).result <;> rfl

end

/-! ## 3. Sources that span lines -/

/-- The usual rules name one tag, which ends in an opener. -/
theorem usual_tagsDelimited : Rules.usual.TagsDelimited Table.lines.dialect := by
  intro entry he
  obtain rfl := List.mem_singleton.1 he
  exact ⟨'\x7b', by decide, by decide⟩

/-- What a source that spans lines parses to, by the usual rules. -/
def parseLines (t : Text) : Except Failure Product :=
  (Stage.run Table.lines.dialect Rules.usual .parse (Text.units t)).result

/-- **Joining two texts with a newline joins what they parse to.**  Let `t` parse.  Then `t`, a
newline and `u` together parse exactly if `u` does, to the expressions of `t` and then those of `u`
moved, with everything inside them, by the tokens of `t` and its lines.  If `u` fails to read or to
walk, the whole fails as `u` does, with the same words and the place moved; it fails in no other
way. -/
theorem parse_append_newline {t : Text} {es : List Node} (ht : parseLines t = .ok (.nodes es))
    (u : Text) :
    let o : Offset := ⟨(Table.lines.dialect.tokenize (Text.units t)).length, t.count '\n' + 1⟩
    (∀ p, parseLines (t ++ '\n' :: u) = .ok p ↔
      ∃ xs, parseLines u = .ok (.nodes xs) ∧ p = .nodes (es ++ xs.map (Node.move o))) ∧
    (∀ e, parseLines u = .error (.read e) →
      parseLines (t ++ '\n' :: u) = .error (.read (e.move o)) ∧
        MessageMoved o e.place? e.message (e.move o).message) ∧
    (∀ e, parseLines u = .error (.walk e) →
      parseLines (t ++ '\n' :: u) = .error (.walk (e.move o)) ∧
        MessageMoved o e.place? (e.message false) ((e.move o).message false)) ∧
    ∀ e, parseLines u ≠ .error (.source e) := by
  intro o
  have hjoin : parseLines (t ++ '\n' :: u) = parsedBehind o es (parseLines u) := by
    have := Stage.parse_behind (u := u) Dialect.lines_regular rfl usual_tagsDelimited
      (c := '\n') (by decide) (by decide) ht
    rwa [newlines_lines] at this
  have houtcome := Stage.parse_outcome (d := Table.lines.dialect) (r := Rules.usual) (Text.units u)
  refine ⟨?_, ?_, ?_, ?_⟩
  · intro p
    rw [hjoin]
    rcases houtcome with ⟨xs, hu⟩ | ⟨e, hu⟩ | ⟨e, hu⟩
    · rw [parseLines, hu, parsedBehind, Node.moveAll_eq_map]
      constructor
      · intro hp
        exact ⟨xs, rfl, (Except.ok.inj hp).symm⟩
      · rintro ⟨ys, hys, rfl⟩
        obtain rfl : xs = ys := by simpa using hys
        rfl
    · simp [parseLines, hu, parsedBehind]
    · simp [parseLines, hu, parsedBehind]
  · intro e he
    rw [hjoin, he]
    exact ⟨rfl, e.message_move⟩
  · intro e he
    rw [hjoin, he]
    exact ⟨rfl, e.message_move⟩
  · intro e he
    rcases houtcome with ⟨xs, hu⟩ | ⟨e', hu⟩ | ⟨e', hu⟩
    all_goals
      rw [parseLines, hu] at he
      cases he

/-- A comment at the end of the first text, and a closer as the second: the closer is stray, and
it is token 1 on line 2. -/
theorem parseLines_stray_behind_comment :
    parseLines ['a', ';', '('] =
        .ok (.nodes [.leaf .symbol ['a'] ⟨some 0, some 0, some 1, some 1⟩]) ∧
      parseLines ['a', ';', '(', '\n', ')'] =
        .error (.read (.strayCloser none ⟨1, ⟨[')'], some 2, some 1⟩⟩)) := by
  have ha : Table.lines.dialect.tokenize (Text.units ['a', ';', '(']) =
      [⟨['a'], some 1, some 1⟩] := by decide
  have hc : Table.lines.dialect.tokenize (Text.units [')']) = [⟨[')'], some 1, some 1⟩] := by
    decide
  have ht : parseLines ['a', ';', '('] =
      .ok (.nodes [.leaf .symbol ['a'] ⟨some 0, some 0, some 1, some 1⟩]) := by
    rw [parseLines, Stage.result_parse, ha, Dialect.read, Cell.number_cons, Cell.number_nil,
      Dialect.readFrom_literal rfl, Dialect.readFrom_done]
    simp only [Traced.result_emitForm, Traced.result_done, Traced.except_mapError_ok, Except.bind,
      Rules.walkAll_eq_evalAll]
    rfl
  have hu : parseLines [')'] = .error (.read (.strayCloser none ⟨0, ⟨[')'], some 1, some 1⟩⟩)) := by
    rw [parseLines, Stage.result_parse, hc, Dialect.read, Cell.number_cons, Cell.number_nil,
      Dialect.readFrom_strayTop (b := .round) rfl]
    rfl
  exact ⟨ht, ((parse_append_newline ht [')']).2.1 _ hu).1⟩

end SharpForms
