/-
# What a traced run prints

A run that is traced gives what the same run gives untraced, and an untraced run prints no trace
(`parse_traced`).  The rules are told whether the run is traced, since descriptions carry bounds
then; but of what is read nothing is described, neither in an expression nor in a complaint.

The trace of a text that parses is one line for its tokens, one for each form at any depth, and one
for each expression that came from a form; forms and expressions stand in post-order.  Where the
reader fails no expression has been made yet, and where the walk fails all forms have been made.
-/
import SharpForms.Command.Run
import SharpForms.Proofs.Expression.Trace
import SharpForms.Proofs.Pipeline.Failures

namespace SharpForms

/-! ## 1. The events of a run -/

section

variable {d : Dialect} {r : Rules} {us : List Text} {ns : List Node} {e : ReadError}

/-- Where the reader fails, the tokens and what the reader has made are all that is made. -/
theorem Stage.events_parse_error (h : (d.read (d.tokenize us)).result = .error e) :
    (Stage.run d r .parse us).events =
      .tokens (d.tokenize us) :: (d.read (d.tokenize us)).events := by
  have hforms : (d.forms (d.tokenize us)).result = .error (.read e) := by
    rw [Dialect.forms, Traced.result_mapError, h]
    rfl
  rw [run, Dialect.scan, Traced.emit_andThen, Traced.done_andThen, Traced.events_emit, ofTokens,
    Traced.events_map, Traced.events_andThen_error hforms, Dialect.forms, Traced.events_mapError]

/-- Otherwise the walk makes more behind that. -/
theorem Stage.events_parse_ok (h : (d.read (d.tokenize us)).result = .ok ns) :
    (Stage.run d r .parse us).events =
      .tokens (d.tokenize us) :: (d.read (d.tokenize us)).events ++ (r.evalAll ns).events := by
  have hforms : (d.forms (d.tokenize us)).result = .ok ns := by
    rw [Dialect.forms, Traced.result_mapError, h]
    rfl
  rw [run, Dialect.scan, Traced.emit_andThen, Traced.done_andThen, Traced.events_emit, ofTokens,
    Traced.events_map, Traced.events_andThen_ok hforms, Dialect.forms, Traced.events_mapError,
    Rules.expressions, Traced.events_mapError, Rules.walkAll_eq_evalAll]
  rfl

end

/-! ## 2. The lines of a trace -/

namespace Command

/-- The line for the tokens of a text. -/
def tokenLine (ts : List Token) : Text := "tok: ".toList ++ Token.showAll ts

/-- The line for a form. -/
def readLine (n : Node) : Text := "read: ".toList ++ n.caption true

/-- The line for an expression. -/
def walkLine (x : Node) : Text := "walk: ".toList ++ x.caption true

/-- A text parsed by the usual rules, traced or not. -/
def parsed (d : Dialect) (debug : Bool) (t : Text) : Traced Failure Product :=
  Stage.run d (rules { stage := .parse, debug }) .parse (Text.units t)

/-- The lines that are printed while a text is parsed. -/
def parseTrace (d : Dialect) (debug : Bool) (t : Text) : List Text :=
  if debug then (parsed d debug t).events.map Event.line else []

variable {d : Dialect} {debug : Bool} {t : Text} {ns : List Node}

/-- They are the printed trace. -/
theorem trace_parsed : trace { stage := .parse, debug } (parsed d debug t).events =
    (parseTrace d debug t).flatMap line := by
  cases debug with
  | false => rfl
  | true => rw [trace, parseTrace, if_pos rfl, if_pos rfl, List.flatMap_map]

/-- What is parsed, in terms of the forms and of their expressions by class: the trace does not
come into it. -/
theorem result_parsed : (parsed d debug t).result =
    ((d.read (d.tokenize (Text.units t))).result.mapError Failure.read).bind fun ns =>
      ((expressionAll Rules.usualTags ns).mapError Failure.walk).map Product.nodes := by
  have hrules : rules { stage := .parse, debug } = Rules.withTags Rules.usualTags debug := rfl
  rw [parsed, Stage.result_parse, hrules]
  simp only [Rules.walkAll_eq_evalAll, Rules.eval_withTags_all]

theorem result_parsed_of_read (h : (d.read (d.tokenize (Text.units t))).result = .ok ns) :
    (parsed d debug t).result =
      ((expressionAll Rules.usualTags ns).mapError Failure.walk).map Product.nodes := by
  rw [result_parsed, h]
  rfl

/-- Either the reader fails, or it gives forms, and then the walk gives expressions or fails. -/
theorem parsed_cases (d : Dialect) (debug : Bool) (t : Text) :
    (∃ e, (d.read (d.tokenize (Text.units t))).result = .error e ∧
        (parsed d debug t).result = .error (.read e)) ∨
      ∃ ns, (d.read (d.tokenize (Text.units t))).result = .ok ns ∧
        ((∃ es, expressionAll Rules.usualTags ns = .ok es ∧
            (parsed d debug t).result = .ok (.nodes es)) ∨
          ∃ e, expressionAll Rules.usualTags ns = .error e ∧
            (parsed d debug t).result = .error (.walk e)) := by
  cases h : (d.read (d.tokenize (Text.units t))).result with
  | error e =>
    rw [result_parsed, h]
    exact .inl ⟨e, rfl, rfl⟩
  | ok ns =>
    rw [result_parsed_of_read h]
    refine .inr ⟨ns, rfl, ?_⟩
    cases expressionAll Rules.usualTags ns with
    | ok es => exact .inl ⟨es, rfl, rfl⟩
    | error e => exact .inr ⟨e, rfl, rfl⟩

/-- Where the reader fails, only forms stand in the trace behind the tokens. -/
theorem parseTrace_of_read_error {e : ReadError}
    (h : (d.read (d.tokenize (Text.units t))).result = .error e) :
    ∃ ns : List Node, parseTrace d true t =
      tokenLine (d.tokenize (Text.units t)) :: ns.map readLine := by
  obtain ⟨ns, hns⟩ := d.makes_read (d.tokenize (Text.units t))
  refine ⟨ns, ?_⟩
  rw [parseTrace, if_pos rfl, parsed, Stage.events_parse_error h, hns, List.map_cons,
    List.map_map]
  rfl

/-- Otherwise all forms stand there in post-order, and behind them whatever the walk makes. -/
theorem parseTrace_of_read (h : (d.read (d.tokenize (Text.units t))).result = .ok ns)
    {xs : List Node}
    (hxs : ((Rules.withTags Rules.usualTags true).evalAll ns).events = xs.map Event.expression) :
    parseTrace d true t = tokenLine (d.tokenize (Text.units t)) ::
      (Node.postorderAll ns).map readLine ++ xs.map walkLine := by
  have hrules : rules { stage := .parse, debug := true } = .withTags Rules.usualTags true := rfl
  rw [parseTrace, if_pos rfl, parsed, Stage.events_parse_ok h, hrules, hxs, Dialect.events_read h,
    List.map_append, List.map_cons, List.map_map, List.map_map]
  rfl

/-- Of what is read no description comes into a complaint. -/
theorem message_of_read {e : WalkError} (h : (d.read (d.tokenize (Text.units t))).result = .ok ns)
    (he : expressionAll Rules.usualTags ns = .error e) : e.message true = e.message false := by
  have hwalk : (Rules.usual.walkAll ns).result = .error e := by
    rw [Rules.walkAll_eq_evalAll, Rules.usual_eq_withTags, Rules.eval_withTags_all, he]
  have hsyntax := Dialect.isSyntax_of_walk (d.text_ne_nil_of_tokenize t) h hwalk
  cases e with
  | unknownTag tag place => rfl
  | unknownNode | emptyLiteral | unfitRule => exact hsyntax.elim

/-! ## 3. Traced and untraced runs -/

/-- **Tracing does not interfere, and the trace is complete.**  Take any dialect and any text.

* The traced run gives the same expressions or fails with the same error and the same words, and the
  untraced run prints no trace.
* If the text parses, the trace is one line for the tokens, one for each form at any depth in
  post-order, and one for each expression that came from a form in post-order; these are the
  expressions of the forms, one by one.
* If the reader fails, no line of the trace is for an expression; and if the walk fails, all forms
  have their lines. -/
theorem parse_traced (d : Dialect) (t : Text) :
    let ts := d.tokenize (Text.units t)
    (∀ debug, trace { stage := .parse, debug } (parsed d debug t).events =
        (parseTrace d debug t).flatMap line) ∧
      ((parsed d true t).result = (parsed d false t).result ∧ parseTrace d false t = [] ∧
        ∀ e, (parsed d true t).result = .error (.walk e) → e.message true = e.message false) ∧
      (∀ es, (parsed d true t).result = .ok (.nodes es) →
        ∃ ns, (d.read ts).result = .ok ns ∧
          expressionAll Rules.usualTags (Node.postorderAll ns) =
            .ok (es.flatMap Node.fromForms) ∧
          parseTrace d true t = tokenLine ts :: (Node.postorderAll ns).map readLine ++
            (es.flatMap Node.fromForms).map walkLine) ∧
      (∀ e, (parsed d true t).result = .error (.read e) →
        ∃ ns : List Node, parseTrace d true t = tokenLine ts :: ns.map readLine) ∧
      ∀ e, (parsed d true t).result = .error (.walk e) →
        ∃ ns, (d.read ts).result = .ok ns ∧ ∃ xs : List Node, parseTrace d true t =
          tokenLine ts :: (Node.postorderAll ns).map readLine ++ xs.map walkLine := by
  intro ts
  have hresult : (parsed d true t).result = (parsed d false t).result := by
    rw [result_parsed, result_parsed]
  refine ⟨fun debug => trace_parsed, ?_⟩
  obtain ⟨e, hread, h⟩ | ⟨ns, hread, ⟨es, hexpr, h⟩ | ⟨e, hexpr, h⟩⟩ := parsed_cases d true t
  · -- the reader fails
    refine ⟨⟨hresult, rfl, ?_⟩, ?_, fun _ _ => parseTrace_of_read_error hread, ?_⟩ <;> simp [h]
  · -- both give what they should
    have hnested : Node.BoundsNested (Node.postorderAll ns) :=
      (Dialect.read_eq_ok_iff.1 hread).boundsNested (ascending_number 0 _).1
    refine ⟨⟨hresult, rfl, by simp [h]⟩, ?_, by simp [h], by simp [h]⟩
    intro es' h'
    obtain rfl : es = es' := by simpa [h] using h'
    exact ⟨ns, hread, expressionAll_postorderAll ns es hnested hexpr,
      parseTrace_of_read hread (Rules.events_evalAll hnested hexpr)⟩
  · -- the walk fails
    have hmakes : ((Rules.withTags Rules.usualTags true).evalAll ns).Makes .expression :=
      Rules.makes_evalAll ns
    obtain ⟨xs, hxs⟩ := hmakes
    refine ⟨⟨hresult, rfl, ?_⟩, by simp [h], by simp [h],
      fun _ _ => ⟨ns, hread, xs, parseTrace_of_read hread hxs⟩⟩
    intro e' h'
    obtain rfl : e = e' := by simpa [h] using h'
    exact message_of_read hread hexpr

/-- A set of one number: the number is made before the set, and the head has no line of its own. -/
theorem parse_traced_set :
    parseTrace Table.plain.dialect true "#\x7b1\x7d".toList =
      ["tok: ['#\x7b', '1', '\x7d']".toList,
        "read: <Li 1 ::1:1>".toList,
        "read: <#\x7b <Li 1 ::1:1> \x7d ::0:2>".toList,
        "walk: <Nu 1 ::1:1>".toList,
        "walk: <sx <Sy hash-set ::0:2>, <Nu 1 ::1:1> ::0:2>".toList] := by
  let d := Table.plain.dialect
  let cell (i : Nat) (t : Text) (char : Nat) : Cell := ⟨i, ⟨t, some 1, some char⟩⟩
  let inner : Bounds := ⟨some 1, some 1, some 1, some 3⟩
  let outer : Bounds := ⟨some 0, some 2, some 1, some 1⟩
  have htok : d.tokenize (Text.units "#\x7b1\x7d".toList) =
      [⟨['#', '\x7b'], some 1, some 1⟩, ⟨['1'], some 1, some 3⟩, ⟨['\x7d'], some 1, some 4⟩] := by
    decide
  have hread : (d.read (d.tokenize (Text.units "#\x7b1\x7d".toList))).result =
      .ok [.dispatch ['#', '\x7b'] [.leaf .literal ['1'] inner] (some ['\x7d']) outer] := by
    have hnumber : Forest d.byKind [cell 1 ['1'] 3] _ :=
      .literal (by decide : d.kind ['1'] = .leaf)
    have hset : Forest d.byKind _ _ :=
      @Forest.region _ (cell 0 ['#', '\x7b'] 1) (cell 2 ['\x7d'] 4) _ _
        ⟨by decide, '\x7b', rfl, by decide⟩ (by decide) hnumber
    rw [htok]
    exact Dialect.read_eq_ok_iff.2 hset
  have hparsed : (parsed d true "#\x7b1\x7d".toList).result =
      .ok (.nodes [.call [.leaf .symbol "hash-set".toList outer, .leaf .number ['1'] inner]
        outer]) := by
    rw [result_parsed_of_read hread]
    rfl
  obtain ⟨ns, hns, -, htrace⟩ := (parse_traced d "#\x7b1\x7d".toList).2.2.1 _ hparsed
  obtain rfl := Except.ok.inj (hread.symm.trans hns)
  rw [htrace, htok]
  decide

end Command

end SharpForms
