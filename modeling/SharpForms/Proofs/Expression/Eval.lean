/-
# The walk is structural recursion

The walk works off a stack of tasks.  `eval` says what it makes of a node by recursion on the node:
look up the rule, evaluate the items from left to right if there are any, apply the rule.  The two
agree in everything, the trace and the errors included: whatever else is on the stack, visiting a
node is evaluating it and then going on with its expression on top (`runTasks_visit`).  So the walk
of a node is its evaluation (`walk_eq_eval`), and the walk of a forest that of its trees in order.
-/
import SharpForms.Expression.Walk

namespace SharpForms

/-! ## 1. Laws of traced computations -/

namespace Traced

variable {ε α β γ : Type}

/-- A result that is there already. -/
def lift : Except ε α → Traced ε α
  | .ok a => done a
  | .error e => fail e

@[simp] theorem lift_ok (a : α) : (lift (.ok a) : Traced ε α) = done a := rfl

@[simp] theorem result_lift (x : Except ε α) : (lift x).result = x := by
  cases x <;> rfl

@[simp] theorem done_andThen (a : α) (f : α → Traced ε β) : (done a).andThen f = f a := by
  simp [andThen]

@[simp] theorem andThen_done (x : Traced ε α) : x.andThen done = x := by
  obtain ⟨events, result⟩ := x
  cases result <;> simp [andThen]

theorem emit_andThen (e : Event) (x : Traced ε α) (f : α → Traced ε β) :
    (x.emit e).andThen f = (x.andThen f).emit e := by
  obtain ⟨events, result⟩ := x
  cases result <;> rfl

theorem andThen_assoc (x : Traced ε α) (f : α → Traced ε β) (g : β → Traced ε γ) :
    (x.andThen f).andThen g = x.andThen fun a => (f a).andThen g := by
  obtain ⟨events, result⟩ := x
  cases result with
  | error e => rfl
  | ok a =>
    simp only [andThen]
    cases (f a).result <;> simp

theorem map_eq_andThen (f : α → β) (x : Traced ε α) : x.map f = x.andThen fun a => done (f a) := by
  obtain ⟨events, result⟩ := x
  cases result <;> simp [map, andThen, Except.map]

/-- What comes behind a computation matters only for the results that it can have. -/
theorem andThen_congr {x : Traced ε α} {f g : α → Traced ε β}
    (h : ∀ a, x.result = .ok a → f a = g a) : x.andThen f = x.andThen g := by
  unfold andThen
  cases hx : x.result with
  | error e => rfl
  | ok a =>
    dsimp only
    rw [h a hx]

end Traced

/-! ## 2. Evaluation -/

namespace Rules

open Traced

/-- An expression that has just been made. -/
def made (x : Except WalkError Node) : Traced WalkError Node :=
  (lift x).andThen fun x => (done x).emit (.expression x)

@[simp] theorem result_made (x : Except WalkError Node) : (made x).result = x := by
  cases x <;> rfl

@[simp] theorem made_ok_andThen (x : Node) (f : Node → Traced WalkError (List Node)) :
    (made (.ok x)).andThen f = (f x).emit (.expression x) := by
  rw [made, lift_ok, done_andThen, emit_andThen, done_andThen]

variable (r : Rules)

/-- A node with nothing to walk inside. -/
def evalLeaf (n : Node) : Traced WalkError Node :=
  (lift (r.actionFor n)).andThen fun action => made (r.applyToLeaf action n)

/-- A node whose items are evaluated between looking up its rule and applying it. -/
def evalAround (n : Node) (items : Traced WalkError (List Node)) : Traced WalkError Node :=
  (lift (r.actionFor n)).andThen fun action =>
    items.andThen fun xs => made (applyToItems action n xs)

mutual

/-- The expression of a node, by recursion on the node. -/
def eval : Node → Traced WalkError Node
  | .group b items at_ => r.evalAround (.group b items at_) (evalAll items)
  | .dispatch tag items closer at_ =>
    r.evalAround (.dispatch tag items closer at_) (evalAll items)
  | .leaf kind text at_ => r.evalLeaf (.leaf kind text at_)
  | .string text at_ => r.evalLeaf (.string text at_)
  | .call items at_ => r.evalLeaf (.call items at_)
  | .plain value => r.evalLeaf (.plain value)
  | .placeholder label => r.evalLeaf (.placeholder label)

/-- The expressions of the trees of a forest, from left to right. -/
def evalAll : List Node → Traced WalkError (List Node)
  | [] => done []
  | n :: ns => (eval n).andThen fun x => (evalAll ns).map (x :: ·)

end

variable {r} {n : Node} {items : List Node}

/-- No item is lost. -/
theorem length_of_evalAll {ns xs : List Node} (h : (r.evalAll ns).result = .ok xs) :
    xs.length = ns.length := by
  induction ns generalizing xs with
  | nil =>
    obtain rfl : [] = xs := Except.ok.inj h
    rfl
  | cons n ns ih =>
    rw [evalAll, result_andThen] at h
    cases hx : (r.eval n).result with
    | error e => rw [hx] at h; cases h
    | ok x =>
      rw [hx] at h
      cases hxs : (r.evalAll ns).result with
      | error e => simp [hxs, Except.bind, Except.map] at h
      | ok xs' =>
        obtain rfl : x :: xs' = xs := by simpa [hxs, Except.bind, Except.map] using h
        rw [List.length_cons, List.length_cons, ih hxs]

/-! ## 3. One task at a time -/

variable {tasks : List Task} {xs : List Node}

/-- A node with nothing to walk inside is done at once. -/
theorem runTasks_leaf (h : n.walkedItems? = none) :
    r.runTasks (.visit n :: tasks) xs =
      (r.evalLeaf n).andThen fun x => r.runTasks tasks (x :: xs) := by
  rw [runTasks, evalLeaf]
  cases r.actionFor n with
  | error e => rfl
  | ok action =>
    dsimp only
    split
    · simp_all
    · rw [lift_ok, done_andThen]
      cases r.applyToLeaf action n with
      | error e => rfl
      | ok x => rw [made_ok_andThen]

/-- Of a node with items the items come first. -/
theorem runTasks_items (h : n.walkedItems? = some items) :
    r.runTasks (.visit n :: tasks) xs =
      (lift (r.actionFor n)).andThen fun action =>
        r.runTasks (items.map .visit ++ .gather n action items.length :: tasks) xs := by
  rw [runTasks]
  cases r.actionFor n with
  | error e => rfl
  | ok action =>
    dsimp only
    split
    · simp_all
    · simp_all

theorem runTasks_gather {action : Action} {count : Nat} :
    r.runTasks (.gather n action count :: tasks) xs =
      (made (applyToItems action n (xs.take count).reverse)).andThen fun x =>
        r.runTasks tasks (x :: xs.drop count) := by
  rw [runTasks]
  cases applyToItems action n (xs.take count).reverse with
  | error e => rfl
  | ok x => rw [made_ok_andThen]

/-! ## 4. The walk -/

/-- Around its items a node is evaluated as the stack does it, if the items are. -/
theorem runTasks_around (h : n.walkedItems? = some items)
    (heval : r.eval n = r.evalAround n (r.evalAll items))
    (hitems : ∀ tasks xs, r.runTasks (items.map .visit ++ tasks) xs =
      (r.evalAll items).andThen fun ys => r.runTasks tasks (ys.reverse ++ xs)) :
    r.runTasks (.visit n :: tasks) xs =
      (r.eval n).andThen fun x => r.runTasks tasks (x :: xs) := by
  rw [runTasks_items h, heval, evalAround, andThen_assoc]
  refine andThen_congr fun action _ => ?_
  rw [hitems, andThen_assoc]
  refine andThen_congr fun ys hys => ?_
  have hlen : items.length = ys.reverse.length := by
    rw [List.length_reverse, length_of_evalAll hys]
  rw [runTasks_gather, hlen, List.take_left, List.drop_left, List.reverse_reverse]

mutual

/-- **Visiting a node is evaluating it**, whatever else is to be done. -/
theorem runTasks_visit : ∀ (n : Node) (tasks : List Task) (xs : List Node),
    r.runTasks (.visit n :: tasks) xs = (r.eval n).andThen fun x => r.runTasks tasks (x :: xs)
  | .group _ items _, _, _ | .dispatch _ items _ _, _, _ =>
    runTasks_around rfl rfl (runTasks_visitAll items)
  | .leaf .., _, _ | .string .., _, _ | .call .., _, _ | .plain _, _, _ | .placeholder _, _, _ =>
    runTasks_leaf rfl

theorem runTasks_visitAll : ∀ (ns : List Node) (tasks : List Task) (xs : List Node),
    r.runTasks (ns.map .visit ++ tasks) xs =
      (r.evalAll ns).andThen fun ys => r.runTasks tasks (ys.reverse ++ xs)
  | [], tasks, xs => by simp [evalAll]
  | n :: ns, tasks, xs => by
    rw [List.map_cons, List.cons_append, runTasks_visit n, evalAll, andThen_assoc]
    refine andThen_congr fun x _ => ?_
    rw [runTasks_visitAll ns, map_eq_andThen, andThen_assoc]
    refine andThen_congr fun ys _ => ?_
    simp

end

/-- The walk of a node is its evaluation. -/
theorem walk_eq_eval (n : Node) : r.walk n = r.eval n := by
  rw [walk, runTasks_visit, andThen_assoc]
  simp [runTasks]

/-- The walk of a forest is the evaluation of its trees. -/
theorem walkAll_eq_evalAll (ns : List Node) : r.walkAll ns = r.evalAll ns := by
  induction ns with
  | nil => rfl
  | cons n ns ih => rw [walkAll, evalAll, walk_eq_eval, ih]

end Rules

end SharpForms
