/-
# Walking forms behind others

The walk looks up tags and classes, never places, so a form further down becomes the same
expression, or fails with the same error, further down (`walk_move`).  This needs descriptions to
leave out bounds: a rule may put a description into an expression.

Each tree of a forest is walked on its own, so of two forests side by side the walk gives the
expressions of the one and then those of the other, or the first error (`walkAll_append`).
-/
import SharpForms.Proofs.Expression.Eval
import SharpForms.Proofs.Moved

namespace SharpForms

section

variable (o : Offset)

/-- What a walk gives, moved. -/
def walkedMove (x : Except WalkError Node) : Except WalkError Node :=
  (x.map (Node.move o)).mapError (WalkError.move o)

/-- What the walk of a forest gives, moved. -/
def walkedMoveAll (x : Except WalkError (List Node)) : Except WalkError (List Node) :=
  (x.map (Node.moveAll o)).mapError (WalkError.move o)

end

variable {r : Rules} {o : Offset} {n : Node} {action : Action} {ns ms : List Node}

/-! ## 1. Rules, moved -/

theorem NodeClass.covers_move (k : NodeClass) : k.covers (n.move o) = k.covers n := by
  cases k with
  | leaf kind => cases kind <;> cases n <;> rfl
  | string | group | dispatch | call => cases n <;> rfl

namespace Rules

theorem actionFor_move :
    r.actionFor (n.move o) = (r.actionFor n).mapError (WalkError.move o) := by
  have hfind : (r.classes.find? fun entry => entry.1.covers (n.move o)) =
      r.classes.find? fun entry => entry.1.covers n := by
    simp only [NodeClass.covers_move]
  cases n with
  | dispatch tag items closer b =>
    simp only [actionFor, Node.move]
    cases r.tags.find? fun entry => entry.1 == tag <;> rfl
  | leaf | string | group | call | plain | placeholder =>
    simp only [Node.move] at hfind
    simp only [actionFor, Node.move, hfind]
    split <;> rfl

theorem classify_move (t : Text) (b : Bounds) :
    classify t (b.move o) = walkedMove o (classify t b) := by
  unfold classify
  split
  · rfl
  · split <;> rfl

theorem applyToLeaf_move (hr : r.withBounds = false) :
    r.applyToLeaf action (n.move o) = walkedMove o (r.applyToLeaf action n) := by
  cases action with
  | sequence head => cases n <;> rfl
  | string => simp [applyToLeaf, hr, walkedMove, Except.map, Node.move]
  | literal =>
    cases n with
    | leaf kind t b | string t b => exact classify_move t b
    | group | dispatch | call | plain | placeholder => rfl

theorem applyToItems_move :
    applyToItems action (n.move o) (Node.moveAll o ns) =
      walkedMove o (applyToItems action n ns) := by
  cases action with
  | sequence head =>
    cases head <;>
      simp [applyToItems, walkedMove, Except.map, Node.move, Node.moveAll]
  | string | literal => rfl

/-! ## 2. The walk, moved -/

theorem evalLeaf_move (hr : r.withBounds = false) :
    (r.evalLeaf (n.move o)).result = walkedMove o (r.evalLeaf n).result := by
  simp only [evalLeaf, Traced.result_andThen, Traced.result_lift, result_made, actionFor_move,
    applyToLeaf_move hr]
  cases r.actionFor n <;> rfl

theorem evalAround_move {x y : Traced WalkError (List Node)}
    (h : y.result = walkedMoveAll o x.result) :
    (r.evalAround (n.move o) y).result = walkedMove o (r.evalAround n x).result := by
  simp only [evalAround, Traced.result_andThen, Traced.result_lift, result_made, actionFor_move, h]
  cases r.actionFor n with
  | error e => rfl
  | ok action =>
    cases x.result with
    | error e => rfl
    | ok xs => exact applyToItems_move

mutual

/-- **A node further down is evaluated as it is**, further down. -/
theorem eval_move (hr : r.withBounds = false) : ∀ n : Node,
    (r.eval (n.move o)).result = walkedMove o (r.eval n).result
  | .group b items at_ =>
    evalAround_move (n := .group b items at_) (evalAll_move hr items)
  | .dispatch tag items closer at_ =>
    evalAround_move (n := .dispatch tag items closer at_) (evalAll_move hr items)
  | .leaf kind text at_ => evalLeaf_move (n := .leaf kind text at_) hr
  | .string text at_ => evalLeaf_move (n := .string text at_) hr
  | .call items at_ => evalLeaf_move (n := .call items at_) hr
  | .plain value => evalLeaf_move (n := .plain value) hr
  | .placeholder label => evalLeaf_move (n := .placeholder label) hr

theorem evalAll_move (hr : r.withBounds = false) : ∀ ns : List Node,
    (r.evalAll (Node.moveAll o ns)).result = walkedMoveAll o (r.evalAll ns).result
  | [] => rfl
  | n :: ns => by
    simp only [Node.moveAll, evalAll, Traced.result_andThen, Traced.result_map, eval_move hr n,
      evalAll_move hr ns]
    cases (r.eval n).result with
    | error e => rfl
    | ok x => cases (r.evalAll ns).result <;> rfl

end

theorem walkAll_move (hr : r.withBounds = false) (ns : List Node) :
    (r.walkAll (Node.moveAll o ns)).result = walkedMoveAll o (r.walkAll ns).result := by
  rw [walkAll_eq_evalAll, walkAll_eq_evalAll, evalAll_move hr]

/-! ## 3. Forests side by side -/

/-- The trees of two forests are walked in order, and the first error stays. -/
theorem walkAll_append (ns ms : List Node) :
    (r.walkAll (ns ++ ms)).result =
      (r.walkAll ns).result.bind fun xs => (r.walkAll ms).result.map (xs ++ ·) := by
  induction ns with
  | nil =>
    cases h : (r.walkAll ms).result <;> simp [walkAll, Except.bind, Except.map, h]
  | cons n ns ih =>
    simp only [List.cons_append, walkAll, Traced.result_andThen, Traced.result_map, ih]
    cases (r.walk n).result with
    | error e => rfl
    | ok x =>
      cases (r.walkAll ns).result with
      | error e => rfl
      | ok xs => cases (r.walkAll ms).result <;> rfl

/-- Where a forest has expressions, each of its trees has one. -/
theorem exists_walk_of_mem {xs : List Node} (h : (r.walkAll ns).result = .ok xs) (hn : n ∈ ns) :
    ∃ x, (r.walk n).result = .ok x := by
  obtain ⟨ms, ms', rfl⟩ := List.append_of_mem hn
  rw [walkAll_append, walkAll, Traced.result_andThen] at h
  cases hx : (r.walk n).result with
  | ok x => exact ⟨x, rfl⟩
  | error e =>
    rw [hx] at h
    cases hms : (r.walkAll ms).result <;> rw [hms] at h <;> cases h

/-- A dispatch that has an expression has a tag that the rules name. -/
theorem exists_tag_of_walk {tag : Text} {items : List Node} {closer : Option Text} {b : Bounds}
    {x : Node} (h : (r.walk (.dispatch tag items closer b)).result = .ok x) :
    ∃ head, (tag, head) ∈ r.tags := by
  rw [walk_eq_eval, eval, evalAround, Traced.result_andThen, Traced.result_lift, actionFor] at h
  cases hfind : r.tags.find? fun entry => entry.1 == tag with
  | none => rw [hfind] at h; cases h
  | some entry =>
    obtain ⟨tag', head⟩ := entry
    have heq := List.find?_some hfind
    obtain rfl : tag' = tag := by simpa using heq
    exact ⟨head, List.mem_of_find?_eq_some hfind⟩

end Rules

end SharpForms
