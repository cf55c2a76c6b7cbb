/-
# Nodes without their places

`unplaced` forgets where the nodes of a tree came from and keeps all else, the text that ended a
dispatch region included.  Two trees that differ only in places are the same (`same_of_unplaced`),
and moving a tree changes nothing but places (`unplaced_move`).
-/
import SharpForms.Node.Equality
import SharpForms.Proofs.Moved

namespace SharpForms
namespace Node

/-! ## 1. Forgetting places -/

mutual

/-- A node without its bounds, and so for everything inside it. -/
def unplaced : Node → Node
  | leaf kind text _ => leaf kind text {}
  | string text _ => string text {}
  | group bracket items _ => group bracket (unplacedAll items) {}
  | dispatch tag items closer _ => dispatch tag (unplacedAll items) closer {}
  | call items _ => call (unplacedAll items) {}
  | plain value => plain value
  | placeholder label => placeholder label

/-- The trees of a forest without their bounds. -/
def unplacedAll : List Node → List Node
  | [] => []
  | n :: ns => unplaced n :: unplacedAll ns

end

theorem unplacedAll_eq_map (ns : List Node) : unplacedAll ns = ns.map unplaced := by
  induction ns with
  | nil => rfl
  | cons n ns ih => simp [unplacedAll, ih]

@[simp] theorem unplacedAll_append (ns ms : List Node) :
    unplacedAll (ns ++ ms) = unplacedAll ns ++ unplacedAll ms := by
  simp [unplacedAll_eq_map]

/-! ## 2. What does not depend on places -/

mutual

/-- A tree that differs from another one only in places is the same. -/
theorem same_of_unplaced : ∀ n m : Node, n.unplaced = m.unplaced → same n m = true
  | leaf kind t b, m, h => by cases m <;> simp_all [unplaced]
  | string t b, m, h => by cases m <;> simp_all [unplaced]
  | plain value, m, h => by cases m <;> simp_all [unplaced]
  | placeholder label, m, h => by cases m <;> simp_all [unplaced]
  | group bracket items b, m, h => by
    cases m with
    | group bracket' items' b' =>
      simp only [unplaced, group.injEq] at h
      simp [h.1, sameAll_of_unplaced items items' h.2.1]
    | leaf | string | dispatch | call | plain | placeholder => simp [unplaced] at h
  | dispatch tag items closer b, m, h => by
    cases m with
    | dispatch tag' items' closer' b' =>
      simp only [unplaced, dispatch.injEq] at h
      simp [h.1, sameAll_of_unplaced items items' h.2.1]
    | leaf | string | group | call | plain | placeholder => simp [unplaced] at h
  | call items b, m, h => by
    cases m with
    | call items' b' =>
      simp only [unplaced, call.injEq] at h
      simp [sameAll_of_unplaced items items' h.1]
    | leaf | string | group | dispatch | plain | placeholder => simp [unplaced] at h

theorem sameAll_of_unplaced : ∀ ns ms : List Node,
    unplacedAll ns = unplacedAll ms → sameAll ns ms = true
  | [], ms, h => by
    cases ms with
    | nil => rfl
    | cons m ms => simp [unplacedAll] at h
  | n :: ns, ms, h => by
    cases ms with
    | nil => simp [unplacedAll] at h
    | cons m ms =>
      simp only [unplacedAll, List.cons.injEq] at h
      simp [same_of_unplaced n m h.1, sameAll_of_unplaced ns ms h.2]

end

section

variable (o : Offset)

mutual

@[simp] theorem unplaced_move : ∀ n : Node, (n.move o).unplaced = n.unplaced
  | leaf .. | string .. | plain _ | placeholder _ => rfl
  | group _ items _ | dispatch _ items _ _ | call items _ => by
    simp only [move, unplaced, unplacedAll_moveAll items]

@[simp] theorem unplacedAll_moveAll : ∀ ns : List Node,
    unplacedAll (moveAll o ns) = unplacedAll ns
  | [] => rfl
  | n :: ns => by rw [moveAll, unplacedAll, unplacedAll, unplaced_move n, unplacedAll_moveAll ns]

end

end

end Node
end SharpForms
