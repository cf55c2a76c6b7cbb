/-
# The walk from forms to expressions

A walk turns one node into an expression.  Its RULES say what becomes of each dispatch tag and of
each class of node: a sequence, which is a call on what the items become, possibly headed by a
symbol of the rule's own; a string; or a literal, which is a number or a symbol by its first
characters.  Every result has the bounds of the node it came from, and so has the symbol that a
rule puts in front.

The walk keeps its pending work on a stack of its own, so the depth of a node costs nothing.  A
node with items is met twice: on the way down, when its rule is looked up, and again when its items
have become expressions.  The first node in reading order that has no rule ends the walk.
-/
import SharpForms.Trace

namespace SharpForms

/-! ## 1. Rules -/

/-- What becomes of a node. -/
inductive Action where
  | sequence (head : Option Text)
  | string
  | literal
  deriving DecidableEq, Repr

/-- A class of nodes that a rule can name.  The base leaf covers all kinds of leaf. -/
inductive NodeClass where
  | leaf (kind : LeafKind)
  | string
  | group (bracket : Bracket)
  | dispatch
  | call
  deriving DecidableEq, Repr

/-- The class covers the node. -/
def NodeClass.covers : NodeClass → Node → Bool
  | .leaf .base, .leaf .. => true
  | .leaf k, .leaf k' .. => k == k'
  | .string, .string .. => true
  | .group b, .group b' .. => b == b'
  | .dispatch, .dispatch .. => true
  | .call, .call .. => true
  | _, _ => false

/-- What becomes of dispatches, by tag, and of all other nodes, by class; the first entry that
fits decides.  A rule may turn a node into a string that describes it, and then it matters whether
descriptions carry bounds. -/
structure Rules where
  tags : List (Text × Option Text)
  classes : List (NodeClass × Action)
  withBounds : Bool := false
  deriving Repr

namespace Rules

/-- The usual tags: a set is the only dispatch. -/
def usualTags : List (Text × Option Text) := [("#\x7b".toList, some "hash-set".toList)]

/-- The usual classes: the five that the reader makes besides dispatches. -/
def usualClasses : List (NodeClass × Action) :=
  [(.group .round, .sequence none),
   (.group .square, .sequence (some "vector".toList)),
   (.group .curly, .sequence (some "hash-map".toList)),
   (.string, .string),
   (.leaf .literal, .literal)]

/-- The usual rules. -/
def usual : Rules := ⟨usualTags, usualClasses, false⟩

end Rules

/-! ## 2. Failures -/

/-- Why a node has no expression, with the node that is to blame. -/
inductive WalkError where
  | unknownTag (tag : Text) (place : Place)
  | unknownNode (node : Node)
  | emptyLiteral
  | unfitRule (node : Node)
  deriving Repr

/-- The failure in words; descriptions carry bounds if they are asked for. -/
def WalkError.message (withBounds : Bool) : WalkError → String
  | .unknownTag tag place =>
    let shown := String.ofList (Text.quoted tag)
    let whence := String.ofList place.text
    s!"dispatch unknown {shown} {whence}"
  | .unknownNode node => "not a form " ++ String.ofList (node.describe withBounds)
  | .emptyLiteral => "string index out of range"
  | .unfitRule node => "the rule does not fit " ++ String.ofList (node.describe withBounds)

/-! ## 3. One node -/

/-- The text is a number's: it starts with a digit, or with a minus and a digit. -/
def Text.isNumeric : Text → Bool
  | '-' :: c :: _ => Text.isDigit c
  | c :: _ => Text.isDigit c
  | [] => false

namespace Rules

variable (r : Rules)

/-- The rule for a node. -/
def actionFor (n : Node) : Except WalkError Action :=
  match n with
  | .dispatch tag .. =>
    match r.tags.find? fun entry => entry.1 == tag with
    | some (_, head) => .ok (.sequence head)
    | none => .error (.unknownTag tag n.place)
  | _ =>
    match r.classes.find? fun entry => entry.1.covers n with
    | some (_, action) => .ok action
    | none => .error (.unknownNode n)

/-- The expression of a leaf's text. -/
def classify (text : Text) (b : Bounds) : Except WalkError Node :=
  if text.isEmpty then .error .emptyLiteral
  else if text.isNumeric then .ok (.leaf .number text b)
  else .ok (.leaf .symbol text b)

/-- The expression of a node that has no items to walk. -/
def applyToLeaf (action : Action) (n : Node) : Except WalkError Node :=
  match action, n with
  | .literal, .leaf _ text b | .literal, .string text b => classify text b
  | .string, _ => .ok (.string (n.caption r.withBounds) n.bounds)
  | _, _ => .error (.unfitRule n)

/-- The expression of a node whose items have become the given expressions. -/
def applyToItems (action : Action) (n : Node) (items : List Node) : Except WalkError Node :=
  match action with
  | .sequence none => .ok (.call items n.bounds)
  | .sequence (some head) => .ok (.call (.leaf .symbol head n.bounds :: items) n.bounds)
  | _ => .error (.unfitRule n)

end Rules

/-- The items of a node that the walk goes into: those of groups and dispatches.  A call has been
walked already and counts as one piece. -/
def Node.walkedItems? : Node → Option (List Node)
  | .group _ items _ | .dispatch _ items _ _ => some items
  | _ => none

/-! ## 4. The stack of pending work -/

/-- Pending work: a node to be walked, or a node whose items have been walked. -/
inductive Task where
  | visit (n : Node)
  | gather (n : Node) (action : Action) (count : Nat)
  deriving Repr

namespace Task

/-- How much work is pending; going into a node replaces it by less. -/
def weight : Task → Nat
  | visit n => 2 * n.size
  | gather .. => 1

/-- How much work a stack holds. -/
def weightAll : List Task → Nat
  | [] => 0
  | t :: ts => t.weight + weightAll ts

@[simp] theorem weightAll_cons (t : Task) (ts : List Task) :
    weightAll (t :: ts) = t.weight + weightAll ts := rfl

@[simp] theorem weightAll_append (ts us : List Task) :
    weightAll (ts ++ us) = weightAll ts + weightAll us := by
  induction ts with
  | nil => simp [weightAll]
  | cons t ts ih => simp [ih, Nat.add_assoc]

/-- Visiting a forest weighs twice its size. -/
theorem weightAll_visit (ns : List Node) : weightAll (ns.map visit) = 2 * Node.sizeAll ns := by
  induction ns with
  | nil => rfl
  | cons n ns ih => simp [Node.sizeAll, weight, ih, Nat.mul_add]

/-- No work is free. -/
theorem weight_pos (t : Task) : 0 < t.weight := by
  cases t with
  | visit n => have := n.size_pos; simp [weight]; omega
  | gather n action count => simp [weight]

end Task

/-- A node is bigger than the forest that the walk goes into. -/
theorem Node.size_of_walkedItems? {n : Node} {items : List Node} (h : n.walkedItems? = some items) :
    n.size = Node.sizeAll items + 1 := by
  cases n <;> simp_all [Node.walkedItems?, Node.size]

namespace Rules

variable (r : Rules)

/-- Works off a stack of tasks, with the expressions made and not yet gathered (latest first). -/
def runTasks : (tasks : List Task) → (made : List Node) → Traced WalkError (List Node)
  | [], made => .done made
  | .visit n :: tasks, made =>
    match r.actionFor n with
    | .error e => .fail e
    | .ok action =>
      match _h : n.walkedItems? with
      | some items =>
        runTasks (items.map .visit ++ .gather n action items.length :: tasks) made
      | none =>
        match r.applyToLeaf action n with
        | .error e => .fail e
        | .ok x => (runTasks tasks (x :: made)).emit (.expression x)
  | .gather n action count :: tasks, made =>
    match applyToItems action n (made.take count).reverse with
    | .error e => .fail e
    | .ok x => (runTasks tasks (x :: made.drop count)).emit (.expression x)
termination_by tasks => Task.weightAll tasks
decreasing_by
  · have := Node.size_of_walkedItems? _h
    simp only [Task.weightAll_append, Task.weightAll_cons, Task.weightAll_visit, Task.weight]
    omega
  · have := Task.weight_pos (.visit n)
    simp only [Task.weightAll_cons]
    omega
  · have := Task.weight_pos (.gather n action count)
    simp only [Task.weightAll_cons]
    omega

/-- The expression of one node. -/
def walk (n : Node) : Traced WalkError Node :=
  (r.runTasks [.visit n] []).andThen fun made =>
    match made with
    | x :: _ => .done x
    | [] => .fail (.unknownNode n)

/-- The expressions of a forest, each tree walked on its own. -/
def walkAll : List Node → Traced WalkError (List Node)
  | [] => .done []
  | n :: ns => (r.walk n).andThen fun x => (walkAll ns).map (x :: ·)

end Rules

end SharpForms
