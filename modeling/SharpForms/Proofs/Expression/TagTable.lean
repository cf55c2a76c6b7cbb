/-
# Walks with any table of tags

A walk may have a table of tags of its own; all else is by the usual rules.  `expression` says what
such a walk makes of a node, class by class and by recursion on the node: there is no stack in it,
no list of classes that is searched, and the bounds of each result stand where it is made.

* `eval_withTags`: this is the walk, for every table and every node, also for nodes that are no
  forms.
* `failure?_expression`: if there is no expression, then because of the first node in reading order
  that has a defect of its own (`defect?`), a node standing before its items.

Both are in `walk_withTags`.
-/
import SharpForms.Proofs.Expression.Desugared

namespace SharpForms

/-- A table of tags: each with the head of the call that it becomes, if the call has one. -/
abbrev TagTable := List (Text × Option Text)

/-- The usual rules with another table of tags. -/
def Rules.withTags (tags : TagTable) (withBounds : Bool) : Rules :=
  ⟨tags, Rules.usualClasses, withBounds⟩

theorem Rules.usual_eq_withTags : Rules.usual = Rules.withTags Rules.usualTags false := rfl

variable {tags : TagTable} {withBounds : Bool}

/-! ## 1. Expressions by class -/

mutual

/-- The expression of a node.  A dispatch is looked up first: the first entry with its tag decides,
and without an entry its items are not looked at. -/
def expression (tags : TagTable) : Node → Except WalkError Node
  | .leaf .literal text at_ =>
    if text = [] then .error .emptyLiteral else .ok (.leaf (.ofText text) text at_)
  | .string text at_ => .ok (.string text at_)
  | .group b items at_ =>
    (expressionAll tags items).map fun xs => .call (headed b.head? at_ xs) at_
  | .dispatch tag items _ at_ =>
    match tags.lookup tag with
    | some head => (expressionAll tags items).map fun xs => .call (headed head at_ xs) at_
    | none => .error (.unknownTag tag at_.place)
  | .leaf kind text at_ => .error (.unknownNode (.leaf kind text at_))
  | .call items at_ => .error (.unknownNode (.call items at_))
  | .plain value => .error (.unknownNode (.plain value))
  | .placeholder label => .error (.unknownNode (.placeholder label))

/-- The expressions of nodes from left to right, up to the first that has none. -/
def expressionAll (tags : TagTable) : List Node → Except WalkError (List Node)
  | [] => .ok []
  | n :: ns => (expression tags n).bind fun x => (expressionAll tags ns).map (x :: ·)

end

theorem expressionAll_eq_mapM (ns : List Node) :
    expressionAll tags ns = ns.mapM (expression tags) := by
  induction ns with
  | nil => rfl
  | cons n ns ih =>
    rw [expressionAll, ih, List.mapM_cons]
    cases expression tags n with
    | error e => rfl
    | ok x => cases ns.mapM (expression tags) <;> rfl

/-- An expression has the bounds of the node that it comes from. -/
theorem bounds_of_expression {n x : Node} (h : expression tags n = .ok x) :
    x.bounds = n.bounds := by
  cases n with
  | leaf kind text at_ =>
    cases kind with
    | literal =>
      rw [expression] at h
      split at h
      · cases h
      · obtain rfl := Except.ok.inj h
        rfl
    | base | symbol | number => cases h
  | string text at_ =>
    obtain rfl := Except.ok.inj h
    rfl
  | group b items at_ =>
    obtain ⟨xs, -, rfl⟩ := Rules.exists_of_map_eq_ok h
    rfl
  | dispatch tag items closer at_ =>
    rw [expression] at h
    split at h
    · obtain ⟨xs, -, rfl⟩ := Rules.exists_of_map_eq_ok h
      rfl
    · cases h
  | call | plain | placeholder => cases h

/-! ## 2. The walk -/

namespace Rules

theorem find?_eq_lookup (tags : TagTable) (tag : Text) :
    (tags.find? fun entry => entry.1 == tag).map Prod.snd = tags.lookup tag := by
  induction tags with
  | nil => rfl
  | cons entry tags ih =>
    rw [List.find?_cons, List.lookup_cons, BEq.comm]
    cases tag == entry.1 with
    | true => rfl
    | false => exact ih

/-- A table decides about a dispatch by its first entry for the tag. -/
theorem actionFor_dispatch (tag : Text) (items : List Node) (closer : Option Text)
    (at_ : Bounds) :
    (withTags tags withBounds).actionFor (.dispatch tag items closer at_) =
      match tags.lookup tag with
      | some head => .ok (.sequence head)
      | none => .error (.unknownTag tag at_.place) := by
  rw [actionFor, ← find?_eq_lookup]
  simp only [withTags]
  cases tags.find? fun entry => entry.1 == tag <;> rfl

/-- A literal is classified by its text. -/
theorem classify_eq (text : Text) (at_ : Bounds) :
    classify text at_ =
      if text = [] then .error .emptyLiteral else .ok (.leaf (.ofText text) text at_) := by
  cases text with
  | nil => rfl
  | cons c text =>
    simp only [classify, LeafKind.ofText, List.isEmpty_cons, reduceCtorEq]
    cases Text.isNumeric (c :: text) <;> rfl

mutual

/-- **The walk makes of a node its expression by class.** -/
theorem eval_withTags : ∀ n : Node,
    ((withTags tags withBounds).eval n).result = expression tags n
  | .leaf kind text at_ => by
    cases kind with
    | literal =>
      have hrule : (withTags tags withBounds).actionFor (.leaf .literal text at_) = .ok .literal :=
        rfl
      rw [eval, evalLeaf, hrule, Traced.lift_ok, Traced.done_andThen, result_made, expression,
        ← classify_eq]
      rfl
    | base | symbol | number => rfl
  | .string text at_ => rfl
  | .group b items at_ => by
    have hrule : (withTags tags withBounds).actionFor (.group b items at_) =
        .ok (.sequence b.head?) := by cases b <;> rfl
    rw [eval, evalAround_of_sequence hrule, eval_withTags_all items, expression]
    rfl
  | .dispatch tag items closer at_ => by
    have hrule := @actionFor_dispatch tags withBounds tag items closer at_
    rw [expression]
    cases hlookup : tags.lookup tag with
    | some head =>
      rw [hlookup] at hrule
      rw [eval, evalAround_of_sequence hrule, eval_withTags_all items]
      rfl
    | none =>
      rw [hlookup] at hrule
      rw [eval, evalAround, hrule]
      rfl
  | .call items at_ => rfl
  | .plain value => rfl
  | .placeholder label => rfl

theorem eval_withTags_all : ∀ ns : List Node,
    ((withTags tags withBounds).evalAll ns).result = expressionAll tags ns
  | [] => rfl
  | n :: ns => by rw [result_evalAll_cons, eval_withTags n, eval_withTags_all ns, expressionAll]

end

end Rules

/-! ## 3. The first defect -/

namespace Node

mutual

/-- A node and all nodes inside it, each in front of the nodes inside it. -/
def preorder : Node → List Node
  | group b items at_ => group b items at_ :: preorderAll items
  | dispatch tag items closer at_ => dispatch tag items closer at_ :: preorderAll items
  | call items at_ => call items at_ :: preorderAll items
  | leaf kind text at_ => [leaf kind text at_]
  | string text at_ => [string text at_]
  | plain value => [plain value]
  | placeholder label => [placeholder label]

/-- All nodes of a forest, tree by tree. -/
def preorderAll : List Node → List Node
  | [] => []
  | n :: ns => preorder n ++ preorderAll ns

end

/-- Why a node has no expression, whatever its items are. -/
def defect? (tags : TagTable) : Node → Option WalkError
  | leaf .literal text _ => if text = [] then some .emptyLiteral else none
  | string .. | group .. => none
  | dispatch tag _ _ at_ =>
    if (tags.lookup tag).isSome then none else some (.unknownTag tag at_.place)
  | n => some (.unknownNode n)

end Node

/-- What a computation fails with, if it does. -/
def failure? {ε α : Type} : Except ε α → Option ε
  | .ok _ => none
  | .error e => some e

theorem failure?_eq_some_iff {ε α : Type} {x : Except ε α} {e : ε} :
    failure? x = some e ↔ x = .error e := by
  cases x <;> simp [failure?]

theorem failure?_map {ε α β : Type} (f : α → β) (x : Except ε α) :
    failure? (x.map f) = failure? x := by
  cases x <;> rfl

/-- Of two computations in turn the first one fails first. -/
theorem failure?_bind_map {ε α β γ : Type} (x : Except ε α) (y : Except ε β) (f : α → β → γ) :
    failure? (x.bind fun a => y.map (f a)) = (failure? x).or (failure? y) := by
  cases x with
  | error e => rfl
  | ok a => exact failure?_map (f a) y

mutual

/-- **The first node with a defect is why there is no expression.** -/
theorem failure?_expression : ∀ n : Node,
    failure? (expression tags n) = n.preorder.findSome? (Node.defect? tags)
  | .leaf kind text at_ => by
    cases kind with
    | literal =>
      rw [expression, Node.preorder, List.findSome?_singleton, Node.defect?]
      split <;> rfl
    | base | symbol | number => rfl
  | .string text at_ => rfl
  | .group b items at_ => by
    rw [expression, Node.preorder, failure?_map, failure?_expressionAll items]
    rfl
  | .dispatch tag items closer at_ => by
    rw [expression, Node.preorder, List.findSome?_cons, Node.defect?]
    cases tags.lookup tag with
    | some head => exact (failure?_map _ _).trans (failure?_expressionAll items)
    | none => rfl
  | .call items at_ => rfl
  | .plain value => rfl
  | .placeholder label => rfl

theorem failure?_expressionAll : ∀ ns : List Node,
    failure? (expressionAll tags ns) = (Node.preorderAll ns).findSome? (Node.defect? tags)
  | [] => rfl
  | n :: ns => by
    rw [expressionAll, failure?_bind_map, failure?_expression n, failure?_expressionAll ns,
      Node.preorderAll, List.findSome?_append]

end

/-- **A walk is the expression by class, results, bounds and errors alike**, for every table of tags
and every node.

* The walk of a node gives its expression, or fails as that does, and the walk of a forest goes
  from left to right.
* An expression has the bounds of its node.
* If there is none, the failure is the defect of the first node that has one, a node standing
  before the nodes inside it; and if no node has one, there is an expression. -/
theorem walk_withTags (tags : TagTable) (withBounds : Bool) :
    (∀ n, ((Rules.withTags tags withBounds).walk n).result = expression tags n) ∧
      (∀ ns, ((Rules.withTags tags withBounds).walkAll ns).result = ns.mapM (expression tags)) ∧
      (∀ n x, expression tags n = .ok x → x.bounds = n.bounds) ∧
      (∀ n e, expression tags n = .error e ↔
        n.preorder.findSome? (Node.defect? tags) = some e) := by
  refine ⟨?_, ?_, ?_, ?_⟩
  · intro n
    rw [Rules.walk_eq_eval, Rules.eval_withTags]
  · intro ns
    rw [Rules.walkAll_eq_evalAll, Rules.eval_withTags_all, expressionAll_eq_mapM]
  · intro n x hx
    exact bounds_of_expression hx
  · intro n e
    rw [← failure?_expression, failure?_eq_some_iff]

/-- The first of two entries decides about a tag, and the head has the bounds of the whole.  In a
vector the unknown tag is met before the empty literal inside it and before the number behind. -/
theorem walk_two_entries :
    let tags : TagTable := [(['#', 'a', '('], some ['f']), (['#', 'a', '('], none)]
    let at_ : Bounds := ⟨some 1, some 3, some 1, some 2⟩
    let known : Node := .dispatch ['#', 'a', '('] [.leaf .literal ['1'] {}] (some [')']) at_
    let unknown : Node := .dispatch ['#', 'b', '('] [.leaf .literal [] {}] (some [')']) {}
    ((Rules.withTags tags false).walk known).result =
        .ok (.call [.leaf .symbol ['f'] at_, .leaf .number ['1'] {}] at_) ∧
      ((Rules.withTags tags false).walk
          (.group .square [known, unknown, .plain (.int 5)] {})).result =
        .error (.unknownTag ['#', 'b', '('] {}) := by
  intro tags at_ known unknown
  obtain ⟨hwalk, -, -, herror⟩ := walk_withTags tags false
  exact ⟨(hwalk known).trans rfl, (hwalk _).trans ((herror _ _).2 rfl)⟩

end SharpForms
