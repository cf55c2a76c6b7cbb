/-
# What the walk makes on its way

A node with items is met twice, and its expression is made the second time, when its items have
become expressions.  So a walk that succeeds has made the expression of every form once, in the
post-order of the forms (`events_evalAll`).

In terms of the expressions: a call may have a head that came from no form, and such a head has the
bounds of the whole call, while the items that came from forms stand inside.  The expressions of
the forms in post-order are those of the result in post-order, without these heads
(`expressionAll_postorderAll`).
-/
import SharpForms.Proofs.Expression.TagTable
import SharpForms.Proofs.Form.Trace
import SharpForms.Proofs.Token.StringFlag

namespace SharpForms

/-! ## 1. Expressions made -/

namespace Rules

variable {r : Rules} {n x : Node} {items : Traced WalkError (List Node)}

theorem makes_lift {α : Type} (x : Except WalkError α) : (Traced.lift x).Makes .expression := by
  cases x with
  | ok a => exact Traced.makes_done a
  | error e => exact Traced.makes_fail e

theorem makes_made (x : Except WalkError Node) : (made x).Makes .expression :=
  (makes_lift x).andThen fun x => (Traced.makes_done x).emit x

mutual

/-- Whatever comes of a node, the walk makes expressions and nothing else. -/
theorem makes_eval : ∀ n : Node, (r.eval n).Makes .expression
  | .group _ items _ | .dispatch _ items _ _ =>
    (makes_lift _).andThen fun _ => (makes_evalAll items).andThen fun _ => makes_made _
  | .leaf .. | .string .. | .call .. | .plain _ | .placeholder _ =>
    (makes_lift _).andThen fun _ => makes_made _

theorem makes_evalAll : ∀ ns : List Node, (r.evalAll ns).Makes .expression
  | [] => Traced.makes_done _
  | n :: ns => (makes_eval n).andThen fun _ => makes_evalAll ns

end

/-- A node with nothing to walk inside makes its expression. -/
theorem events_evalLeaf (h : (r.evalLeaf n).result = .ok x) :
    (r.evalLeaf n).events = [.expression x] := by
  unfold evalLeaf at h ⊢
  cases hrule : r.actionFor n with
  | error e => rw [hrule] at h; cases h
  | ok action =>
    rw [hrule, Traced.lift_ok, Traced.done_andThen, result_made] at h
    rw [Traced.lift_ok, Traced.done_andThen, h]
    rfl

/-- A node with items makes its expression when theirs are made. -/
theorem events_evalAround (h : (r.evalAround n items).result = .ok x) :
    (r.evalAround n items).events = items.events ++ [.expression x] := by
  unfold evalAround at h ⊢
  cases hrule : r.actionFor n with
  | error e => rw [hrule] at h; cases h
  | ok action =>
    rw [hrule, Traced.lift_ok, Traced.done_andThen, Traced.result_andThen] at h
    rw [Traced.lift_ok, Traced.done_andThen]
    cases hitems : items.result with
    | error e => rw [hitems] at h; cases h
    | ok xs =>
      rw [hitems, Except.bind, result_made] at h
      rw [Traced.events_andThen_ok hitems, h]
      rfl

end Rules

/-! ## 2. Expressions in the post-order of the forms -/

section

variable {tags : TagTable} {withBounds : Bool} {n x : Node} {ns ms xs ys items : List Node}

theorem expressionAll_append (hns : expressionAll tags ns = .ok xs)
    (hms : expressionAll tags ms = .ok ys) : expressionAll tags (ns ++ ms) = .ok (xs ++ ys) := by
  rw [expressionAll_eq_mapM] at hns hms ⊢
  rw [List.mapM_append, hns, hms]
  rfl

theorem expressionAll_singleton (h : expression tags n = .ok x) :
    expressionAll tags [n] = .ok [x] := by
  rw [expressionAll, h]
  rfl

theorem expressionAll_cons (h : expressionAll tags (n :: ns) = .ok xs) :
    ∃ y ys, xs = y :: ys ∧ expression tags n = .ok y ∧ expressionAll tags ns = .ok ys := by
  rw [expressionAll] at h
  cases hn : expression tags n with
  | error e => rw [hn] at h; cases h
  | ok y =>
    rw [hn] at h
    obtain ⟨ys, hys, rfl⟩ := Rules.exists_of_map_eq_ok h
    exact ⟨y, ys, rfl, rfl, hys⟩

/-- What a node makes that has an expression: the expressions of the given forms, in order. -/
def Rules.MakesOf (tags : TagTable) {α : Type} (x : Traced WalkError α) (ns : List Node) : Prop :=
  ∃ xs, x.events = xs.map Event.expression ∧ expressionAll tags ns = .ok xs

namespace Rules

theorem makesOf_leaf
    (heval : (withTags tags withBounds).eval n = (withTags tags withBounds).evalLeaf n)
    (hpost : n.postorder = [n]) (h : expression tags n = .ok x) :
    MakesOf tags ((withTags tags withBounds).eval n) n.postorder := by
  have hresult : ((withTags tags withBounds).eval n).result = .ok x := (eval_withTags n).trans h
  rw [heval] at hresult ⊢
  rw [hpost]
  exact ⟨[x], events_evalLeaf hresult, expressionAll_singleton h⟩

theorem makesOf_around
    (heval : (withTags tags withBounds).eval n =
      (withTags tags withBounds).evalAround n ((withTags tags withBounds).evalAll items))
    (hpost : n.postorder = Node.postorderAll items ++ [n]) (h : expression tags n = .ok x)
    (hitems : MakesOf tags ((withTags tags withBounds).evalAll items) (Node.postorderAll items)) :
    MakesOf tags ((withTags tags withBounds).eval n) n.postorder := by
  have hresult : ((withTags tags withBounds).eval n).result = .ok x := (eval_withTags n).trans h
  obtain ⟨xs, hxs, hexpr⟩ := hitems
  rw [heval] at hresult ⊢
  rw [hpost]
  refine ⟨xs ++ [x], ?_, expressionAll_append hexpr (expressionAll_singleton h)⟩
  rw [events_evalAround hresult, hxs, List.map_append]
  rfl

mutual

/-- **A node that has an expression makes the expressions of all forms in it, in post-order.** -/
theorem makesOf_eval : ∀ (n x : Node), expression tags n = .ok x →
    MakesOf tags ((withTags tags withBounds).eval n) n.postorder
  | .group b items at_, x, h => by
    obtain ⟨ys, hys, -⟩ := exists_of_map_eq_ok h
    exact makesOf_around rfl rfl h (makesOf_evalAll items ys hys)
  | .dispatch tag items closer at_, x, h => by
    have hitems := h
    rw [expression] at hitems
    split at hitems
    · obtain ⟨ys, hys, -⟩ := exists_of_map_eq_ok hitems
      exact makesOf_around rfl rfl h (makesOf_evalAll items ys hys)
    · cases hitems
  | .leaf .., x, h | .string .., x, h | .plain _, x, h | .placeholder _, x, h =>
    makesOf_leaf rfl rfl h
  | .call .., x, h => by cases h

theorem makesOf_evalAll : ∀ ns xs : List Node, expressionAll tags ns = .ok xs →
    MakesOf tags ((withTags tags withBounds).evalAll ns) (Node.postorderAll ns)
  | [], xs, _ => ⟨[], rfl, rfl⟩
  | n :: ns, xs, h => by
    obtain ⟨y, ys, rfl, hy, hys⟩ := expressionAll_cons h
    obtain ⟨us, hus, hexpr⟩ := makesOf_eval n y hy
    obtain ⟨vs, hvs, hexpr'⟩ := makesOf_evalAll ns ys hys
    refine ⟨us ++ vs, ?_, expressionAll_append hexpr hexpr'⟩
    have hresult : ((withTags tags withBounds).eval n).result = .ok y := (eval_withTags n).trans hy
    rw [evalAll, Traced.events_andThen_ok hresult, Traced.events_map, hus, hvs, List.map_append]

end

end Rules

/-! ## 3. Expressions in the post-order of the expressions -/

namespace Node

mutual

/-- The expressions in an expression that came from forms, each behind those inside it.  An item
that has the bounds of the whole call came from no form: it is a head. -/
def fromForms : Node → List Node
  | call items at_ => fromFormsIn at_ items ++ [call items at_]
  | leaf kind text at_ => [leaf kind text at_]
  | string text at_ => [string text at_]
  | group b items at_ => [group b items at_]
  | dispatch tag items closer at_ => [dispatch tag items closer at_]
  | plain value => [plain value]
  | placeholder label => [placeholder label]

/-- The expressions that came from forms, among the items of a call with the given bounds. -/
def fromFormsIn (around : Bounds) : List Node → List Node
  | [] => []
  | n :: ns => (if n.bounds = around then [] else fromForms n) ++ fromFormsIn around ns

end

/-- Items with other bounds than the call all came from forms. -/
theorem fromFormsIn_eq_flatMap {around : Bounds} (h : ∀ x ∈ xs, x.bounds ≠ around) :
    fromFormsIn around xs = xs.flatMap fromForms := by
  induction xs with
  | nil => rfl
  | cons x xs ih =>
    rw [List.forall_mem_cons] at h
    rw [fromFormsIn, if_neg h.1, ih h.2, List.flatMap_cons]

/-- The head that a rule puts in front does not count. -/
theorem fromFormsIn_headed (head : Option Text) (at_ : Bounds) (xs : List Node) :
    fromFormsIn at_ (headed head at_ xs) = fromFormsIn at_ xs := by
  cases head with
  | none => rfl
  | some h => simp [headed, fromFormsIn, bounds]

/-- No node has the bounds of an item of its own. -/
def BoundsNested (ns : List Node) : Prop := ∀ m ∈ ns, ∀ k ∈ m.items, k.bounds ≠ m.bounds

end Node

/-- The expressions of items are no heads if the items lie inside the node. -/
theorem bounds_ne_of_expressionAll {at_ : Bounds} (h : expressionAll tags ns = .ok xs)
    (hns : ∀ n ∈ ns, n.bounds ≠ at_) : ∀ x ∈ xs, x.bounds ≠ at_ := by
  induction ns generalizing xs with
  | nil =>
    obtain rfl : [] = xs := Except.ok.inj h
    simp
  | cons n ns ih =>
    obtain ⟨y, ys, rfl, hy, hys⟩ := expressionAll_cons h
    rw [List.forall_mem_cons] at hns ⊢
    refine ⟨?_, ih hys hns.2⟩
    rw [bounds_of_expression hy]
    exact hns.1

/-- A call on the expressions of the items of a node. -/
theorem expressionAll_postorder_call {head : Option Text} {at_ : Bounds}
    (hpost : n.postorder = Node.postorderAll items ++ [n])
    (hitems : expressionAll tags items = .ok xs)
    (hexpr : expression tags n = .ok (.call (headed head at_ xs) at_))
    (hnested : ∀ k ∈ items, k.bounds ≠ at_)
    (ih : expressionAll tags (Node.postorderAll items) = .ok (xs.flatMap Node.fromForms)) :
    expressionAll tags n.postorder = .ok (Node.call (headed head at_ xs) at_).fromForms := by
  have hxs := bounds_ne_of_expressionAll hitems hnested
  rw [hpost, Node.fromForms, Node.fromFormsIn_headed, Node.fromFormsIn_eq_flatMap hxs]
  exact expressionAll_append ih (expressionAll_singleton hexpr)

mutual

/-- **The expressions of the forms in post-order are those in the expression that came from forms,
in post-order.** -/
theorem expressionAll_postorder : ∀ n x : Node, Node.BoundsNested n.postorder →
    expression tags n = .ok x → expressionAll tags n.postorder = .ok x.fromForms
  | .group b items at_, x, hn, h => by
    have hexpr := h
    obtain ⟨xs, hxs, rfl⟩ := Rules.exists_of_map_eq_ok h
    rw [Node.BoundsNested, Node.postorder, List.forall_mem_append, List.forall_mem_singleton] at hn
    exact expressionAll_postorder_call rfl hxs hexpr hn.2
      (expressionAll_postorderAll items xs hn.1 hxs)
  | .dispatch tag items closer at_, x, hn, h => by
    have hexpr := h
    rw [expression] at h
    split at h
    · obtain ⟨xs, hxs, rfl⟩ := Rules.exists_of_map_eq_ok h
      rw [Node.BoundsNested, Node.postorder, List.forall_mem_append,
        List.forall_mem_singleton] at hn
      exact expressionAll_postorder_call rfl hxs hexpr hn.2
        (expressionAll_postorderAll items xs hn.1 hxs)
    · cases h
  | .leaf kind text at_, x, _, h => by
    have hexpr := h
    cases kind with
    | literal =>
      rw [expression] at h
      split at h
      · cases h
      · obtain rfl := Except.ok.inj h
        exact expressionAll_singleton hexpr
    | base | symbol | number => cases h
  | .string text at_, x, _, h => by
    obtain rfl := Except.ok.inj h
    rfl
  | .call .., x, _, h | .plain _, x, _, h | .placeholder _, x, _, h => by cases h

theorem expressionAll_postorderAll : ∀ ns xs : List Node, Node.BoundsNested (Node.postorderAll ns) →
    expressionAll tags ns = .ok xs →
      expressionAll tags (Node.postorderAll ns) = .ok (xs.flatMap Node.fromForms)
  | [], xs, _, h => by
    obtain rfl : [] = xs := Except.ok.inj h
    rfl
  | n :: ns, xs, hn, h => by
    obtain ⟨y, ys, rfl, hy, hys⟩ := expressionAll_cons h
    rw [Node.BoundsNested, Node.postorderAll, List.forall_mem_append] at hn
    rw [Node.postorderAll, List.flatMap_cons]
    exact expressionAll_append (expressionAll_postorder n y hn.1 hy)
      (expressionAll_postorderAll ns ys hn.2 hys)

end

/-- What is made of forms that have expressions: those of them that came from forms, in
post-order. -/
theorem Rules.events_evalAll (hn : Node.BoundsNested (Node.postorderAll ns))
    (h : expressionAll tags ns = .ok xs) :
    ((Rules.withTags tags withBounds).evalAll ns).events =
      (xs.flatMap Node.fromForms).map Event.expression := by
  obtain ⟨us, hus, hexpr⟩ : MakesOf tags ((withTags tags withBounds).evalAll ns) _ :=
    makesOf_evalAll ns xs h
  obtain rfl := Except.ok.inj (hexpr.symm.trans (expressionAll_postorderAll ns xs hn h))
  exact hus

end

/-! ## 4. Forms that are read -/

theorem Node.mem_postorderAll_of_mem {n : Node} {ns : List Node} (hn : n ∈ ns) :
    n ∈ postorderAll ns := by
  obtain ⟨before, after, rfl⟩ := List.append_of_mem hn
  rw [postorderAll_append, postorderAll]
  simp [mem_postorder_self]

/-- Between an opening and a closing token no form has both as its bounds. -/
theorem Forest.bounds_ne_of_mem {L : Lexicon} {o c : Cell} {cs : List Cell} {ns : List Node}
    (hf : Forest L cs ns) (ha : Ascending (o :: cs ++ [c])) :
    ∀ n ∈ ns, n.bounds ≠ o.boundsTo c := by
  intro n hn heq
  obtain ⟨a, hac, z, -, hb⟩ := hf.bounds_of_mem (Node.mem_postorderAll_of_mem hn)
  have hlt := ((ascending_between ha).2.1 a hac).1
  rw [hb] at heq
  have hfirst : (a.index : Int) = o.index := by
    simpa [Cell.boundsTo] using congrArg Bounds.first heq
  omega

/-- Forms that are read lie inside each other. -/
theorem Forest.boundsNested {L : Lexicon} {cs : List Cell} {ns : List Node} (hf : Forest L cs ns)
    (ha : Ascending cs) : Node.BoundsNested (Node.postorderAll ns) := by
  induction hf with
  | empty => nofun
  | append hf hf' ih ih' =>
    obtain ⟨h, h', -⟩ := ascending_append.1 ha
    rw [Node.BoundsNested, Node.postorderAll_append, List.forall_mem_append]
    exact ⟨ih h, ih' h'⟩
  | literal | string | tag =>
    simp [Node.BoundsNested, Node.postorderAll, Node.postorder, Node.items]
  | group _ hf _ ih | region _ _ hf ih =>
    rw [Node.BoundsNested, Node.postorderAll_singleton, Node.postorder, List.forall_mem_append,
      List.forall_mem_singleton]
    exact ⟨ih (ascending_between ha).1, hf.bounds_ne_of_mem ha⟩

end SharpForms
