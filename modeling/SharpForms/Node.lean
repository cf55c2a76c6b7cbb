/-
# Nodes

One type holds everything the stages hand to each other.  FORMS, which the reader makes, are
literals, strings, groups in brackets and dispatches; EXPRESSIONS, which the walk makes, are
symbols, numbers, strings and calls.  Both may be nested freely by hand, and plain values that are
no nodes at all may stand among them, so a walk can meet anything.

A leaf is a token's worth of text.  Its kind says how far it has been understood: a literal not at
all, a symbol and a number by their first characters, and `base` is for text of no such class.

The stages read, walk and print nodes whose leaves and tags are texts.  Equality and filing are for
nodes around any values, which are data (`SharpForms.Datum`).
-/
import SharpForms.Bracket
import SharpForms.Place

namespace SharpForms

/-- How far the text of a leaf has been understood. -/
inductive LeafKind where
  | base
  | literal
  | symbol
  | number
  deriving DecidableEq, Repr, Inhabited

/-- A value that is not a node. -/
inductive Plain where
  | text (t : Text)
  | int (n : Int)
  | bool (b : Bool)
  | nothing
  deriving DecidableEq, Repr, Inhabited

/-- A form, an expression, or a plain value among them.

A dispatch keeps its tag verbatim and the text that ended its region, if it had one.  A placeholder
is a node of no class: it has a label and nothing else. -/
inductive Node where
  | leaf (kind : LeafKind) (text : Text) (bounds : Bounds)
  | string (text : Text) (bounds : Bounds)
  | group (bracket : Bracket) (items : List Node) (bounds : Bounds)
  | dispatch (tag : Text) (items : List Node) (closer : Option Text) (bounds : Bounds)
  | call (items : List Node) (bounds : Bounds)
  | plain (value : Plain)
  | placeholder (label : Nat)
  deriving Repr, Inhabited

namespace Node

/-- Where a node came from; plain values and placeholders do not know. -/
def bounds : Node → Bounds
  | leaf _ _ b | string _ b | group _ _ b | dispatch _ _ _ b | call _ b => b
  | plain _ | placeholder _ => {}

/-- The place that messages name for a node. -/
def place (n : Node) : Place := n.bounds.place

/-- The nodes directly inside a node. -/
def items : Node → List Node
  | group _ items _ | dispatch _ items _ _ | call items _ => items
  | leaf .. | string .. | plain _ | placeholder _ => []

mutual

/-- How many nodes a node holds, itself included. -/
def size : Node → Nat
  | group _ items _ | dispatch _ items _ _ | call items _ => sizeAll items + 1
  | leaf .. | string .. | plain _ | placeholder _ => 1

/-- How many nodes a forest holds. -/
def sizeAll : List Node → Nat
  | [] => 0
  | n :: ns => size n + sizeAll ns

end

/-- No node is empty. -/
theorem size_pos (n : Node) : 0 < n.size := by
  cases n <;> simp [size]

end Node

end SharpForms
