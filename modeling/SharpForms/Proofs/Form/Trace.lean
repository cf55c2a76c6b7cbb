/-
# What the reader makes on its way

The reader makes each form once, when its last token is taken, and never touches it again.  So a
reader in the middle of a text has made, in this order, the forms of the outermost level in front of
the first open bracket, those between that and the next one, and so on, each behind the forms inside
it: `completed`.  What it makes from then on completes the post-order of the forms that it gives
(`completes_readFrom`).

A region is read on its own, starting with nothing; what is made for it are the forms inside the
dispatch, and the dispatch comes behind them like any other form.
-/
import SharpForms.Proofs.Form.Extent
import SharpForms.Proofs.Form.Reading

namespace SharpForms

/-! ## 1. Events of one kind -/

namespace Traced

variable {ε α β : Type} {x : Traced ε α} {kind : Node → Event}

/-- All that is made on the way is of one kind. -/
def Makes (kind : Node → Event) (x : Traced ε α) : Prop :=
  ∃ ns : List Node, x.events = ns.map kind

theorem makes_done (a : α) : (done a : Traced ε α).Makes kind := ⟨[], rfl⟩

theorem makes_fail (e : ε) : (fail e : Traced ε α).Makes kind := ⟨[], rfl⟩

theorem Makes.emit (h : x.Makes kind) (n : Node) : (x.emit (kind n)).Makes kind := by
  obtain ⟨ns, hns⟩ := h
  exact ⟨n :: ns, by rw [events_emit, hns, List.map_cons]⟩

/-- One after the other, both make what they make. -/
theorem Makes.andThen {f : α → Traced ε β} (h : x.Makes kind) (hf : ∀ a, (f a).Makes kind) :
    (x.andThen f).Makes kind := by
  obtain ⟨ns, hns⟩ := h
  cases hx : x.result with
  | error e => exact ⟨ns, by rw [events_andThen_error hx, hns]⟩
  | ok a =>
    obtain ⟨ms, hms⟩ := hf a
    exact ⟨ns ++ ms, by rw [events_andThen_ok hx, hns, hms, List.map_append]⟩

end Traced

/-! ## 2. A reader in the middle of a text -/

/-- The forms that are complete inside the open levels, in the order in which they were made. -/
def completed : List Level → (found : List Node) → List Node
  | [], found => Node.postorderAll found.reverse
  | l :: levels, found => completed levels l.before ++ Node.postorderAll found.reverse

section

variable {levels : List Level} {found : List Node} {n : Node}

/-- With one form more, the forms inside it are complete, and then the form. -/
theorem completed_cons : completed levels (n :: found) = completed levels found ++ n.postorder := by
  cases levels with
  | nil => simp [completed]
  | cons l levels => simp [completed]

/-- Closing a group completes the group, and nothing else. -/
theorem completed_group {l : Level} {at_ : Bounds} :
    completed levels (.group l.bracket found.reverse at_ :: l.before) =
      completed (l :: levels) found ++ [.group l.bracket found.reverse at_] := by
  rw [completed_cons, Node.postorder, completed, List.append_assoc]

end

namespace Dialect

variable {d : Dialect} {levels : List Level} {found out : List Node} {cs : List Cell}

/-- What has been made, and what is made from here on, are the forms of the result, each once. -/
def Completes (d : Dialect) (levels : List Level) (found : List Node) (cs : List Cell)
    (out : List Node) : Prop :=
  (completed levels found).map Event.form ++ (d.readFrom levels found cs).events =
    (Node.postorderAll out).map Event.form

/-- It does not matter whether a form counts to what has been made or to what is made next. -/
theorem eq_postorder_of_emit {made : List Node} {n : Node} {events : List Event}
    (h : (made ++ [n]).map Event.form ++ events = (Node.postorderAll out).map Event.form) :
    made.map Event.form ++ .form n :: events = (Node.postorderAll out).map Event.form := by
  rw [← h, List.map_append, List.append_assoc]
  rfl

/-- **What the reader makes is the post-order of the forms that it gives.** -/
theorem completes_readFrom (h : (d.readFrom levels found cs).result = .ok out) :
    d.Completes levels found cs out := by
  induction levels, found, cs using d.readFrom_induction generalizing out with
  | done found =>
    rw [readFrom_done] at h
    obtain rfl : found.reverse = out := Except.ok.inj h
    rw [Completes, readFrom_done, Traced.events_done, List.append_nil]
    rfl
  | unclosedGroup l levels found => rw [readFrom_unclosedGroup] at h; cases h
  | opener levels found c cs b hk ih =>
    rw [readFrom_opener hk] at h
    have hnext := ih h
    rw [Completes, completed, List.reverse_nil, Node.postorderAll, List.append_nil] at hnext
    rw [Completes, readFrom_opener hk]
    exact hnext
  | strayTop found c cs b hk => rw [readFrom_strayTop hk] at h; cases h
  | closer l levels found c cs hk ih =>
    rw [readFrom_closer hk, Traced.result_emitForm] at h
    have hnext := ih h
    rw [Completes, completed_group] at hnext
    rw [Completes, readFrom_closer hk]
    exact eq_postorder_of_emit hnext
  | strayInside l levels found c cs b hk hb => rw [readFrom_strayInside hk hb] at h; cases h
  | literal levels found c cs hk ih =>
    rw [readFrom_literal hk, Traced.result_emitForm] at h
    have hnext := ih h
    rw [Completes, completed_cons] at hnext
    rw [Completes, readFrom_literal hk]
    exact eq_postorder_of_emit hnext
  | unclosedString levels found c cs hk hcut => rw [readFrom_unclosedString hk hcut] at h; cases h
  | string levels found c cs inside last rest hk hcut ih =>
    rw [readFrom_string hk hcut, Traced.result_emitForm] at h
    have hnext := ih h
    rw [Completes, completed_cons] at hnext
    rw [Completes, readFrom_string hk hcut]
    exact eq_postorder_of_emit hnext
  | emptyTag levels found c cs hk hlast => rw [readFrom_emptyTag hk hlast] at h; cases h
  | tag levels found c cs e hk hlast hr ih =>
    rw [readFrom_tag hk hlast hr, Traced.result_emitForm] at h
    have hnext := ih h
    rw [Completes, completed_cons] at hnext
    rw [Completes, readFrom_tag hk hlast hr]
    exact eq_postorder_of_emit hnext
  | unclosedRegion levels found c cs e closer hk hlast hr hcut =>
    rw [readFrom_unclosedRegion hk hlast hr hcut] at h
    cases h
  | region levels found c cs e closer inside last rest hk hlast hr hcut ih ih' =>
    rw [readFrom_region hk hlast hr hcut, Traced.result_andThen] at h
    cases hi : (d.readFrom [] [] inside).result with
    | error x => rw [hi] at h; cases h
    | ok items =>
      rw [hi] at h
      have hinside : (d.readFrom [] [] inside).events = (Node.postorderAll items).map .form := ih hi
      have hnext := ih' items h
      rw [Completes, completed_cons, Node.postorder, ← List.append_assoc] at hnext
      -- The items are made for the region, and the dispatch behind them.
      rw [Completes, readFrom_region hk hlast hr hcut, Traced.events_andThen_ok hi, hinside,
        ← List.append_assoc, ← List.map_append]
      exact eq_postorder_of_emit hnext

/-- **Whatever comes of a text, the reader makes forms and nothing else.** -/
theorem makes_readFrom (d : Dialect) (levels : List Level) (found : List Node) (cs : List Cell) :
    (d.readFrom levels found cs).Makes .form := by
  induction levels, found, cs using d.readFrom_induction with
  | done found =>
    rw [readFrom_done]
    exact Traced.makes_done _
  | opener levels found c cs b hk ih =>
    rw [readFrom_opener hk]
    exact ih
  | closer l levels found c cs hk ih =>
    rw [readFrom_closer hk]
    exact ih.emit _
  | literal levels found c cs hk ih =>
    rw [readFrom_literal hk]
    exact ih.emit _
  | string levels found c cs inside last rest hk hcut ih =>
    rw [readFrom_string hk hcut]
    exact ih.emit _
  | tag levels found c cs e hk hlast hr ih =>
    rw [readFrom_tag hk hlast hr]
    exact ih.emit _
  | region levels found c cs e closer inside last rest hk hlast hr hcut ih ih' =>
    rw [readFrom_region hk hlast hr hcut]
    exact ih.andThen fun items => (ih' items).emit _
  | unclosedGroup l levels found =>
    rw [readFrom_unclosedGroup]
    exact Traced.makes_fail _
  | strayTop found c cs b hk =>
    rw [readFrom_strayTop hk]
    exact Traced.makes_fail _
  | strayInside l levels found c cs b hk hb =>
    rw [readFrom_strayInside hk hb]
    exact Traced.makes_fail _
  | unclosedString levels found c cs hk hcut =>
    rw [readFrom_unclosedString hk hcut]
    exact Traced.makes_fail _
  | emptyTag levels found c cs hk hlast =>
    rw [readFrom_emptyTag hk hlast]
    exact Traced.makes_fail _
  | unclosedRegion levels found c cs e closer hk hlast hr hcut =>
    rw [readFrom_unclosedRegion hk hlast hr hcut]
    exact Traced.makes_fail _

/-! ## 3. Whole token lists -/

/-- **Of a token list that reads the forms are made in post-order**, each once. -/
theorem events_read {ts : List Token} {ns : List Node} (h : (d.read ts).result = .ok ns) :
    (d.read ts).events = (Node.postorderAll ns).map Event.form :=
  completes_readFrom h

theorem makes_read (d : Dialect) (ts : List Token) : (d.read ts).Makes .form :=
  makes_readFrom d [] [] _

end Dialect

end SharpForms
