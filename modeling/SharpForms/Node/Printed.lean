/-
# Nodes printed as notation

Printing undoes reading as far as it can: leaves are their text, groups and calls have their items
between brackets, separated by single spaces, and a dispatch is its tag with the items and the
text that ended its region.  A string is printed between double quotes as it is, since the notation
has no escapes; so a string that holds a quote does not read back.

Brackets and quotes are printed in their usual shape, whatever dialect the nodes were read in.
-/
import SharpForms.Node

namespace SharpForms

/-- A node that has no printed form. -/
inductive PrintError where
  | placeholder
  | plain (value : Plain)
  deriving DecidableEq, Repr

/-- What is said about a node that has no printed form. -/
def PrintError.message : PrintError → String
  | .placeholder => "no printer for Ast"
  | .plain _ => "no printer for a plain value"

namespace Node

mutual

/-- A node as notation.  What has no printed form leaves nothing; `unprintable?` finds it. -/
def print : Node → Text
  | leaf _ text _ => text
  | string text _ => '"' :: text ++ ['"']
  | group b items _ => b.openChar :: printAll items ++ [b.closeChar]
  | dispatch tag _ none _ => tag
  | dispatch tag items (some closer) _ => tag ++ printAll items ++ closer
  | call items _ => '(' :: printAll items ++ [')']
  | plain _ | placeholder _ => []

/-- A forest as notation: its trees, separated by single spaces. -/
def printAll : List Node → Text
  | [] => []
  | [n] => print n
  | n :: ns => print n ++ ' ' :: printAll ns

end

mutual

/-- The first node, in printing order, that has no printed form.  The items of a dispatch without
a region are not printed, so they do not count. -/
def unprintable? : Node → Option PrintError
  | leaf .. | string .. | dispatch _ _ none _ => none
  | group _ items _ | dispatch _ items (some _) _ | call items _ => unprintableAmong? items
  | plain value => some (.plain value)
  | placeholder _ => some .placeholder

/-- The first node of a forest that has no printed form. -/
def unprintableAmong? : List Node → Option PrintError
  | [] => none
  | n :: ns =>
    match unprintable? n with
    | some e => some e
    | none => unprintableAmong? ns

end

/-- A forest as notation, provided that all of it can be printed. -/
def dump (ns : List Node) : Except PrintError Text :=
  match unprintableAmong? ns with
  | some e => .error e
  | none => .ok (printAll ns)

/-- A forest is its trees' printed forms, joined by single spaces. -/
theorem printAll_eq (ns : List Node) : printAll ns = List.intercalate [' '] (ns.map print) := by
  induction ns with
  | nil => rfl
  | cons n ns ih =>
    cases ns with
    | nil => simp [printAll, List.intercalate]
    | cons m ms =>
      rw [printAll, ih]
      · simp [List.intercalate]
      · simp

/-- Nothing in a forest is without a printed form exactly when nothing in its trees is. -/
theorem unprintableAmong?_eq_none_iff (ns : List Node) :
    unprintableAmong? ns = none ↔ ∀ n ∈ ns, unprintable? n = none := by
  induction ns with
  | nil => simp [unprintableAmong?]
  | cons n ns ih =>
    rw [unprintableAmong?]
    split <;> simp_all

end Node

end SharpForms
