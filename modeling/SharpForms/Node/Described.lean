/-
# Nodes described for people

A description names the class of a node in two letters and shows what it holds; groups show their
brackets, strings are JSON strings, and plain values are spelled as in a list.  While tracing, a
description also carries the node's bounds.
-/
import SharpForms.Node
import SharpForms.Text.JsonString

namespace SharpForms

/-- The two letters that stand for a kind of leaf. -/
def LeafKind.letters : LeafKind → Text
  | .base => ['L', 'e']
  | .literal => ['L', 'i']
  | .symbol => ['S', 'y']
  | .number => ['N', 'u']

/-- A plain value as it is spelled inside a list. -/
def Plain.describe : Plain → Text
  | .text t => Text.quoted t
  | .int n => Text.ofInt n
  | .bool true => "True".toList
  | .bool false => "False".toList
  | .nothing => "None".toList

namespace Node

/-- The bounds behind a description, where they are asked for. -/
def boundsText (withBounds : Bool) (b : Bounds) : Text := if withBounds then b.text else []

mutual

/-- A node described for people, with its bounds if they are asked for. -/
def describe (withBounds : Bool) : Node → Text
  | leaf kind text b =>
    '<' :: kind.letters ++ ' ' :: text ++ boundsText withBounds b ++ ['>']
  | string text b => Text.jsonString text ++ boundsText withBounds b
  | group br items b =>
    '<' :: br.openChar :: ' ' :: Text.commaJoined (describeEach withBounds items) ++
      ' ' :: br.closeChar :: boundsText withBounds b ++ ['>']
  | dispatch tag _ none b => '<' :: tag ++ boundsText withBounds b ++ ['>']
  | dispatch tag items (some closer) b =>
    '<' :: tag ++ ' ' :: Text.commaJoined (describeEach withBounds items) ++
      ' ' :: closer ++ boundsText withBounds b ++ ['>']
  | call items b =>
    '<' :: 's' :: 'x' :: ' ' :: Text.commaJoined (describeEach withBounds items) ++
      boundsText withBounds b ++ ['>']
  | plain value => value.describe
  | placeholder label => '<' :: 'A' :: 's' :: ' ' :: Text.ofInt label ++ ['>']

/-- The descriptions of the trees of a forest. -/
def describeEach (withBounds : Bool) : List Node → List Text
  | [] => []
  | n :: ns => describe withBounds n :: describeEach withBounds ns

end

/-- A forest described as a list. -/
def describeAll (withBounds : Bool) (ns : List Node) : Text :=
  Text.listed (ns.map (describe withBounds))

/-- A node as a line of text: a string stands for itself, all else for its description. -/
def caption (withBounds : Bool) : Node → Text
  | string text _ => text
  | plain (.text t) => t
  | n => n.describe withBounds

end Node

end SharpForms
