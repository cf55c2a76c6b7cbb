/-
# Reading tokens behind others

The reader asks only for the texts of tokens, so tokens further down read as the same forms, or
with the same error, further down.  What is read before them on the outermost level stays in front.
`readFrom_behind` says both at once, along a run of the reader, and `read_append` puts it together:
if a token list reads, then a longer one reads as its forms and then those of the rest, moved.

A list that does not read may do so with more tokens behind it, unless a closer is at fault: no
cut that has been made is undone by tokens further down, so what is stray stays stray
(`readFrom_append_of_stray`).  The two together say how the reader goes on from left to right,
whatever the marks are (`read_left_to_right`).

A tag that ends a token list stands at the end of its forest: `Forest.exists_tag_of_startsSharp`.
-/
import SharpForms.Proofs.Form.Reading
import SharpForms.Proofs.Moved

namespace SharpForms

/-! ## 1. A run of the reader, moved -/

section

variable (o : Offset)

/-- A cut goes through the same token, wherever the tokens stand. -/
theorem cutAt?_move (t : Text) (cs : List Cell) :
    cutAt? t (cs.map (Cell.move o)) = (cutAt? t cs).map fun (inside, last, rest) =>
      (inside.map (Cell.move o), last.move o, rest.map (Cell.move o)) := by
  induction cs with
  | nil => rfl
  | cons c cs ih =>
    by_cases hc : c.text = t
    · simp [cutAt?, hc]
    · cases hcut : cutAt? t cs <;> simp [cutAt?, hc, ih, hcut]

namespace Level

/-- The forms of the innermost level, moved; on the outermost level there are others in front. -/
def foundBehind (front : List Node) : List Level → List Node → List Node
  | [], found => Node.moveAll o found ++ front
  | _ :: _, found => Node.moveAll o found

/-- Open levels, moved, with other forms in front of those of the outermost level. -/
def allBehind (front : List Node) : List Level → List Level
  | [] => []
  | l :: outer =>
    ⟨l.bracket, l.opener.move o, foundBehind o front outer l.before⟩ :: allBehind front outer

@[simp] theorem foundBehind_cons (front : List Node) (levels : List Level) (n : Node)
    (found : List Node) :
    foundBehind o front levels (n :: found) = n.move o :: foundBehind o front levels found := by
  cases levels <;> rfl

end Level

/-- What a run of the reader gives, moved, with other forms in front. -/
def resultBehind (front : List Node) (r : Except ReadError (List Node)) :
    Except ReadError (List Node) :=
  (r.map fun ns => front.reverse ++ Node.moveAll o ns).mapError (ReadError.move o)

end

namespace Dialect

variable {d : Dialect} {levels : List Level} {found : List Node} {cs : List Cell} (o : Offset)

/-- **The reader does further down what it does**, and keeps what is in front. -/
theorem readFrom_behind (front : List Node) :
    (d.readFrom (Level.allBehind o front levels) (Level.foundBehind o front levels found)
        (cs.map (Cell.move o))).result =
      resultBehind o front (d.readFrom levels found cs).result := by
  induction levels, found, cs using d.readFrom_induction generalizing front with
  | done found =>
    rw [readFrom_done, List.map_nil, Level.allBehind, readFrom_done, Level.foundBehind]
    simp [resultBehind, Except.map]
  | unclosedGroup l levels found =>
    rw [readFrom_unclosedGroup, List.map_nil, Level.allBehind, readFrom_unclosedGroup]
    rfl
  | opener levels found c cs b hk ih =>
    rw [readFrom_opener hk, ← ih, List.map_cons, readFrom_opener (c := c.move o) hk]
    rfl
  | strayTop found c cs b hk =>
    rw [readFrom_strayTop hk, List.map_cons, Level.allBehind, readFrom_strayTop (c := c.move o) hk]
    rfl
  | closer l levels found c cs hk ih =>
    rw [readFrom_closer hk, Traced.result_emitForm, ← ih, List.map_cons, Level.allBehind,
      Level.foundBehind, readFrom_closer (c := c.move o) (l := ⟨l.bracket, l.opener.move o, _⟩) hk,
      Traced.result_emitForm, Level.foundBehind_cons]
    simp [Node.move]
  | strayInside l levels found c cs b hk hb =>
    rw [readFrom_strayInside hk hb, List.map_cons, Level.allBehind,
      readFrom_strayInside (c := c.move o) (l := ⟨l.bracket, l.opener.move o, _⟩) hk hb]
    rfl
  | literal levels found c cs hk ih =>
    rw [readFrom_literal hk, Traced.result_emitForm, ← ih, List.map_cons,
      readFrom_literal (c := c.move o) hk, Traced.result_emitForm, Level.foundBehind_cons]
    simp [Node.move]
  | unclosedString levels found c cs hk hcut =>
    have hcut' : cutAt? (c.move o).text (cs.map (Cell.move o)) = none := by
      simp [cutAt?_move, hcut]
    rw [readFrom_unclosedString hk hcut, List.map_cons,
      readFrom_unclosedString (c := c.move o) hk hcut']
    rfl
  | string levels found c cs inside last rest hk hcut ih =>
    have hcut' : cutAt? (c.move o).text (cs.map (Cell.move o)) =
        some (inside.map (Cell.move o), last.move o, rest.map (Cell.move o)) := by
      simp [cutAt?_move, hcut]
    rw [readFrom_string hk hcut, Traced.result_emitForm, ← ih, List.map_cons,
      readFrom_string (c := c.move o) hk hcut', Traced.result_emitForm, Level.foundBehind_cons]
    simp [Node.move, Function.comp_def]
  | emptyTag levels found c cs hk hl =>
    rw [readFrom_emptyTag hk hl, List.map_cons, readFrom_emptyTag (c := c.move o) hk hl]
    rfl
  | tag levels found c cs e hk hl hr ih =>
    rw [readFrom_tag hk hl hr, Traced.result_emitForm, ← ih, List.map_cons,
      readFrom_tag (c := c.move o) hk hl hr, Traced.result_emitForm, Level.foundBehind_cons]
    simp [Node.move, Node.moveAll]
  | unclosedRegion levels found c cs e closer hk hl hr hcut =>
    have hcut' : cutAt? closer (cs.map (Cell.move o)) = none := by
      simp [cutAt?_move, hcut]
    rw [readFrom_unclosedRegion hk hl hr hcut, List.map_cons,
      readFrom_unclosedRegion (c := c.move o) hk hl hr hcut']
    rfl
  | region levels found c cs e closer inside last rest hk hl hr hcut ih ih' =>
    have hcut' : cutAt? closer (cs.map (Cell.move o)) =
        some (inside.map (Cell.move o), last.move o, rest.map (Cell.move o)) := by
      simp [cutAt?_move, hcut]
    -- A region is read on its own, with nothing in front.
    have hinside : (d.readFrom [] [] (inside.map (Cell.move o))).result =
        resultBehind o [] (d.readFrom [] [] inside).result := ih []
    rw [readFrom_region hk hl hr hcut, List.map_cons,
      readFrom_region (c := c.move o) hk hl hr hcut', Traced.result_andThen,
      Traced.result_andThen, hinside]
    cases (d.readFrom [] [] inside).result with
    | error e => rfl
    | ok items =>
      have := ih' items front
      rw [Level.foundBehind_cons] at this
      simpa [resultBehind, Except.map, Except.bind, Node.move] using this

/-- **A token list behind one that reads.** -/
theorem read_append {ts us : List Token} {ns : List Node} {o : Offset}
    (hts : (d.read ts).result = .ok ns) (ho : o.tokens = ts.length) :
    (d.read (ts ++ us.map (Token.move o))).result =
      resultBehind o ns.reverse (d.read us).result := by
  have hcells : Cell.number 0 (ts ++ us.map (Token.move o)) =
      Cell.number 0 ts ++ (Cell.number 0 us).map (Cell.move o) := by
    rw [Cell.number_append, ← Cell.number_move, ho]
  have hbehind := @readFrom_behind d [] [] (Cell.number 0 us) o ns.reverse
  rw [read, hcells, (read_eq_ok_iff.1 hts).readFrom_append [] [], List.append_nil]
  exact hbehind

end Dialect

/-! ## 2. Stray closers -/

namespace Dialect

variable {d : Dialect}

/-- A cut stays where it is when tokens are added behind. -/
theorem cutAt?_append {t : Text} {cs inside rest : List Cell} {last : Cell}
    (h : cutAt? t cs = some (inside, last, rest)) (us : List Cell) :
    cutAt? t (cs ++ us) = some (inside, last, rest ++ us) := by
  obtain ⟨rfl, hlast, hfirst⟩ := cutAt?_eq_some_iff.1 h
  exact cutAt?_eq_some_iff.2 ⟨by simp, hlast, hfirst⟩

/-- **A stray closer is at fault whatever follows.** -/
theorem readFrom_append_of_stray {levels : List Level} {found : List Node} {cs : List Cell}
    {within : Option Bracket} {x : Cell}
    (h : (d.readFrom levels found cs).result = .error (.strayCloser within x)) (us : List Cell) :
    (d.readFrom levels found (cs ++ us)).result = .error (.strayCloser within x) := by
  induction levels, found, cs using d.readFrom_induction with
  | done found => rw [readFrom_done] at h; cases h
  | unclosedGroup l levels found => rw [readFrom_unclosedGroup] at h; cases h
  | opener levels found c cs b hk ih =>
    rw [readFrom_opener hk] at h
    rw [List.cons_append, readFrom_opener hk]
    exact ih h
  | strayTop found c cs b hk =>
    rw [readFrom_strayTop hk] at h
    rwa [List.cons_append, readFrom_strayTop hk]
  | closer l levels found c cs hk ih =>
    rw [readFrom_closer hk, Traced.result_emitForm] at h
    rw [List.cons_append, readFrom_closer hk, Traced.result_emitForm]
    exact ih h
  | strayInside l levels found c cs b hk hb =>
    rw [readFrom_strayInside hk hb] at h
    rwa [List.cons_append, readFrom_strayInside hk hb]
  | literal levels found c cs hk ih =>
    rw [readFrom_literal hk, Traced.result_emitForm] at h
    rw [List.cons_append, readFrom_literal hk, Traced.result_emitForm]
    exact ih h
  | unclosedString levels found c cs hk hcut =>
    rw [readFrom_unclosedString hk hcut] at h; cases h
  | string levels found c cs inside last rest hk hcut ih =>
    rw [readFrom_string hk hcut, Traced.result_emitForm] at h
    rw [List.cons_append, readFrom_string hk (cutAt?_append hcut us), Traced.result_emitForm]
    exact ih h
  | emptyTag levels found c cs hk hl => rw [readFrom_emptyTag hk hl] at h; cases h
  | tag levels found c cs e hk hl hr ih =>
    rw [readFrom_tag hk hl hr, Traced.result_emitForm] at h
    rw [List.cons_append, readFrom_tag hk hl hr, Traced.result_emitForm]
    exact ih h
  | unclosedRegion levels found c cs e closer hk hl hr hcut =>
    rw [readFrom_unclosedRegion hk hl hr hcut] at h; cases h
  | region levels found c cs e closer inside last rest hk hl hr hcut _ ih =>
    rw [readFrom_region hk hl hr hcut, Traced.result_andThen] at h
    rw [List.cons_append, readFrom_region hk hl hr (cutAt?_append hcut us), Traced.result_andThen]
    -- The region is the same one; what matters is whether the fault lies in it or behind it.
    cases hi : (d.readFrom [] [] inside).result with
    | error e' => rw [hi] at h; exact h
    | ok items =>
      rw [hi] at h
      exact ih items h

end Dialect

/-! ## 3. From left to right -/

/-- **Reading goes from left to right**, in any dialect.

* If a token list reads, then with other tokens behind it it reads as its forms and then those of
  the others, whose token numbers at every depth go up by its length; or it fails as the others do,
  with the same words and the number in them, if there is one, raised like that.
* If a closer is at fault in it, then the same closer is at fault whatever stands behind. -/
theorem read_left_to_right (d : Dialect) (ts us : List Token) :
    (∀ ns, (d.read ts).result = .ok ns →
      (∀ ms, (d.read us).result = .ok ms →
        (d.read (ts ++ us)).result = .ok (ns ++ ms.map (Node.move ⟨ts.length, 0⟩))) ∧
      ∀ e, (d.read us).result = .error e →
        (d.read (ts ++ us)).result = .error (e.move ⟨ts.length, 0⟩) ∧
          MessageMoved ⟨ts.length, 0⟩ e.place? e.message (e.move ⟨ts.length, 0⟩).message) ∧
    ∀ within c, (d.read ts).result = .error (.strayCloser within c) →
      (d.read (ts ++ us)).result = .error (.strayCloser within c) := by
  refine ⟨?_, ?_⟩
  · intro ns hns
    have hread : (d.read (ts ++ us)).result =
        resultBehind ⟨ts.length, 0⟩ ns.reverse (d.read us).result := by
      have := @Dialect.read_append d ts us ns ⟨ts.length, 0⟩ hns rfl
      rwa [map_move_tokens] at this
    refine ⟨?_, ?_⟩
    · intro ms hms
      rw [hread, hms, ← Node.moveAll_eq_map]
      simp [resultBehind, Except.map]
    · intro e he
      rw [hread, he]
      exact ⟨rfl, e.message_move⟩
  · intro within c hc
    rw [Dialect.read, Cell.number_append]
    exact Dialect.readFrom_append_of_stray hc _

/-- The opener of lists opens vectors as well, and the vectors have it.  Behind a vector a literal
is token 2, and so is a vector that is not closed; a closer of lists closes nothing, whatever
follows. -/
theorem read_behind_shared_opener :
    let d := Table.dialect [.mark (.opener .square) (some ['('])]
    let vector : List Token := [⟨['('], some 1, some 1⟩, ⟨[']'], some 1, some 2⟩]
    let literal : List Token := [⟨['a'], some 2, some 1⟩]
    let unclosed : List Token := [⟨['('], some 2, some 1⟩]
    let stray : List Token := [⟨[')'], none, none⟩]
    (d.read (vector ++ literal)).result =
        .ok [.group .square [] ⟨some 0, some 1, some 1, some 1⟩,
          .leaf .literal ['a'] ⟨some 2, some 2, some 2, some 1⟩] ∧
      (d.read (vector ++ unclosed)).result =
        .error (.unclosedGroup .square ⟨2, ⟨['('], some 2, some 1⟩⟩) ∧
      (d.read (stray ++ vector)).result = .error (.strayCloser none ⟨0, ⟨[')'], none, none⟩⟩) := by
  intro d vector literal unclosed stray
  have hopener : d.kind ['('] = .opener .square := by decide
  have hliteral : Forest d.byKind _ _ :=
    @Forest.literal _ ⟨0, ⟨['a'], some 2, some 1⟩⟩ (by decide : d.kind ['a'] = .leaf)
  have hvector : Forest d.byKind _ _ :=
    @Forest.group _ .square ⟨0, ⟨['('], some 1, some 1⟩⟩ ⟨1, ⟨[']'], some 1, some 2⟩⟩ _ _
      hopener .empty (by decide : d.kind [']'] = .closer .square)
  have hunclosed : (d.read unclosed).result =
      .error (.unclosedGroup .square ⟨0, ⟨['('], some 2, some 1⟩⟩) := by
    rw [Dialect.read, Cell.number_cons, Dialect.readFrom_opener hopener, Cell.number_nil,
      Dialect.readFrom_unclosedGroup]
    rfl
  have hstray : (d.read stray).result = .error (.strayCloser none ⟨0, ⟨[')'], none, none⟩⟩) := by
    rw [Dialect.read, Cell.number_cons,
      Dialect.readFrom_strayTop (by decide : d.kind [')'] = .closer .round)]
    rfl
  refine ⟨?_, ?_, (read_left_to_right d stray vector).2 _ _ hstray⟩
  · exact ((read_left_to_right d vector literal).1 _ (Dialect.read_eq_ok_iff.2 hvector)).1 _
      (Dialect.read_eq_ok_iff.2 hliteral)
  · exact (((read_left_to_right d vector unclosed).1 _ (Dialect.read_eq_ok_iff.2 hvector)).2 _
      hunclosed).1

/-! ## 4. A tag at the end -/

/-- If a forest ends in a token that starts with the sharp, the token is its last form. -/
theorem Forest.exists_tag_of_startsSharp {d : Dialect} (h : d.Regular) {cs : List Cell}
    {ns : List Node} (hf : Forest d.byMarks cs ns) {c : Cell} (hc : cs.getLast? = some c)
    (hs : d.StartsSharp c.text) : ∃ ms b, ns = ms ++ [.dispatch c.text [] none b] := by
  -- The token is no mark, so it closes nothing.
  have hmark : ∀ {r : Role}, r.isNotation = true → r ≠ .sharp → d.mark r ≠ some c.text := by
    intro r hr hne hm
    exact h.not_startsSharp hr hne hm hs
  induction hf with
  | empty => simp at hc
  | @append cs cs' ns ns' hf hf' ih ih' =>
    cases hlast : cs'.getLast? with
    | none =>
      obtain rfl : cs' = [] := List.getLast?_eq_none_iff.1 hlast
      rw [hf'.nodes_eq_nil rfl, List.append_nil]
      exact ih (by simpa using hc)
    | some c' =>
      rw [List.getLast?_append, hlast] at hc
      obtain ⟨ms, b, rfl⟩ := ih' (hlast.trans hc)
      exact ⟨ns ++ ms, b, by simp⟩
  | literal hl =>
    obtain rfl := List.mem_singleton.1 (List.mem_of_getLast? hc)
    exact absurd hs hl.2.2.2
  | tag =>
    obtain rfl := List.mem_singleton.1 (List.mem_of_getLast? hc)
    exact ⟨[], _, rfl⟩
  | group _ _ hclose | string _ _ hclose =>
    rw [List.getLast?_concat, Option.some.injEq] at hc
    rw [hc] at hclose
    exact absurd hclose (hmark rfl (by simp))
  | region hr =>
    rw [List.getLast?_concat, Option.some.injEq] at hc
    rw [hc] at hr
    rcases hr with ⟨-, -, -, ⟨-, hclose⟩ | ⟨b, -, hclose⟩⟩
    · exact absurd hclose (hmark rfl (by simp))
    · exact absurd hclose (hmark rfl (by simp))

end SharpForms
