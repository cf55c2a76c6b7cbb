/-
# Data: nodes that hold any values

The stages make nodes out of texts: a leaf holds one, and a tag is one.  The classes of nodes ask
for less.  Whatever a node keeps may be any value, a plain one, a list or a node again, and nodes
are compared, hashed and filed in an index all the same.  So this is settled for DATA, where each
place that keeps a value keeps a datum.  The nodes of the stages are data as well
(`SharpForms.Node.datum`).

Two data are the same when they have the same class and hold the same: where they came from does
not count, and neither does what ended a dispatch region.  A string node is the same as the plain
text it holds, and among plain values truth is the number one and falsehood zero.

Some data can be told apart by a KEY, so they can be filed: plain values, string nodes, and leaves
around what has a key itself.  Lists have none, and neither has a node that keeps items.
-/
import SharpForms.Node

namespace SharpForms

/-- A value that a node may keep: a plain one, a list, or a node that keeps data itself.

What a group, a dispatch or a call keeps as its items is a list in all that the stages make.  A
dispatch without a closer keeps `nothing` there. -/
inductive Datum where
  | plain (value : Plain)
  | list (items : List Datum)
  | leaf (kind : LeafKind) (value : Datum) (bounds : Bounds)
  | string (text : Text) (bounds : Bounds)
  | group (bracket : Bracket) (items : Datum) (bounds : Bounds)
  | dispatch (tag : Datum) (items : Datum) (closer : Datum) (bounds : Bounds)
  | call (items : Datum) (bounds : Bounds)
  | placeholder (label : Nat)
  deriving Repr, Inhabited

/-! ## 1. Keys -/

/-- What tells data without items apart: a leaf's kind and the key of what it holds, a text, a
number, nothing at all, or the label of a placeholder. -/
inductive Datum.Key where
  | leaf (kind : LeafKind) (value : Datum.Key)
  | text (t : Text)
  | int (n : Int)
  | nothing
  | placeholder (label : Nat)
  deriving DecidableEq, Repr

/-- The key of a plain value. -/
def Plain.key : Plain → Datum.Key
  | .text t => .text t
  | .int n => .int n
  | .bool b => .int (if b then 1 else 0)
  | .nothing => .nothing

/-- The class of a datum with items, which has no key. -/
inductive ItemsKind where
  | list
  | group (bracket : Bracket)
  | dispatch
  | call
  deriving DecidableEq, Repr

/-- The name of a class whose data have no key. -/
def ItemsKind.name : ItemsKind → String
  | .list => "list"
  | .group .round => "List"
  | .group .square => "Vector"
  | .group .curly => "Map"
  | .dispatch => "Dispatch"
  | .call => "SExpression"

/-- What is said about a datum that cannot be filed. -/
def ItemsKind.message (k : ItemsKind) : String := "unhashable type: '" ++ k.name ++ "'"

namespace Datum

/-- The key of a datum.  If it has none, the class that refuses it: its own, or that of what a leaf
holds. -/
def key : Datum → Except ItemsKind Key
  | plain value => .ok value.key
  | string text _ => .ok (.text text)
  | placeholder label => .ok (.placeholder label)
  | leaf kind value _ => (key value).map (.leaf kind)
  | list _ => .error .list
  | group b _ _ => .error (.group b)
  | dispatch .. => .error .dispatch
  | call .. => .error .call

/-! ## 2. Equality -/

/-- The plain value that a datum is taken for; a string node is taken for its text. -/
def plain? : Datum → Option Plain
  | plain value => some value
  | string text _ => some (.text text)
  | _ => none

mutual

/-- The data are the same, up to where they came from. -/
def same : Datum → Datum → Bool
  | leaf kind value _, leaf kind' value' _ => kind == kind' && same value value'
  | group b items _, group b' items' _ => b == b' && same items items'
  | dispatch tag items _ _, dispatch tag' items' _ _ => same tag tag' && same items items'
  | call items _, call items' _ => same items items'
  | list items, list items' => sameAll items items'
  | placeholder label, placeholder label' => label == label'
  | a, b =>
    match a.plain?, b.plain? with
    | some v, some w => v.key == w.key
    | _, _ => false

/-- The lists are the same, one by one. -/
def sameAll : List Datum → List Datum → Bool
  | [], [] => true
  | a :: as, b :: bs => same a b && sameAll as bs
  | _, _ => false

end

/-! ## 3. Filing data in an index -/

/-- Files data one by one: each gets the index of the first one that has its key.  The first datum
without a key is refused, by the class that has none. -/
def fileFrom (seen : List Key) : List Datum → Except ItemsKind (List Nat)
  | [] => .ok []
  | a :: as => do
    let k ← a.key
    let rest ← fileFrom (seen ++ [k]) as
    return (seen ++ [k]).idxOf k :: rest

/-- For each datum the index of the first one that is the same. -/
def file (as : List Datum) : Except ItemsKind (List Nat) := fileFrom [] as

end Datum

end SharpForms
