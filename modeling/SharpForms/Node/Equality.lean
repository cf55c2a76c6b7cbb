/-
# Equality of nodes

The nodes that the stages make are data whose leaves and tags are texts, so they are compared and
filed as data.  What that says about nodes, class by class, stands here as equations.
-/
import SharpForms.Datum

namespace SharpForms
namespace Node

/-! ## 1. Nodes as data -/

mutual

/-- A node as a datum. -/
def datum : Node → Datum
  | leaf kind text b => .leaf kind (.plain (.text text)) b
  | string text b => .string text b
  | group bracket items b => .group bracket (.list (data items)) b
  | dispatch tag items closer b =>
    .dispatch (.plain (.text tag)) (.list (data items)) (.plain (closer.elim .nothing .text)) b
  | call items b => .call (.list (data items)) b
  | plain value => .plain value
  | placeholder label => .placeholder label

/-- The trees of a forest as data. -/
def data : List Node → List Datum
  | [] => []
  | n :: ns => datum n :: data ns

end

/-! ## 2. Equality -/

/-- The nodes are the same, up to where they came from. -/
def same (n m : Node) : Bool := n.datum.same m.datum

/-- The forests are the same, tree by tree. -/
def sameAll (ns ms : List Node) : Bool := Datum.sameAll (data ns) (data ms)

instance : BEq Node := ⟨same⟩

/-- For each node the index of the first one that is the same. -/
def file (ns : List Node) : Except ItemsKind (List Nat) := Datum.file (data ns)

section

variable {b b' : Bounds}

@[simp] theorem same_leaf {kind kind' : LeafKind} {t t' : Text} :
    same (leaf kind t b) (leaf kind' t' b') = (kind == kind' && t == t') := by
  rw [Bool.eq_iff_iff]
  simp [same, datum, Datum.same, Datum.plain?, Plain.key]

@[simp] theorem same_string {t t' : Text} : same (string t b) (string t' b') = (t == t') := by
  rw [Bool.eq_iff_iff]
  simp [same, datum, Datum.same, Datum.plain?, Plain.key]

@[simp] theorem same_group {br br' : Bracket} {ns ms : List Node} :
    same (group br ns b) (group br' ms b') = (br == br' && sameAll ns ms) := rfl

@[simp] theorem same_dispatch {tag tag' : Text} {ns ms : List Node} {c c' : Option Text} :
    same (dispatch tag ns c b) (dispatch tag' ms c' b') = (tag == tag' && sameAll ns ms) := by
  rw [Bool.eq_iff_iff]
  simp [same, sameAll, datum, Datum.same, Datum.plain?, Plain.key]

@[simp] theorem same_call {ns ms : List Node} :
    same (call ns b) (call ms b') = sameAll ns ms := rfl

@[simp] theorem same_plain {v w : Plain} : same (plain v) (plain w) = (v.key == w.key) := rfl

@[simp] theorem same_placeholder {l l' : Nat} :
    same (placeholder l) (placeholder l') = (l == l') := rfl

end

@[simp] theorem sameAll_nil : sameAll [] [] = true := rfl

@[simp] theorem sameAll_nil_cons {m : Node} {ms : List Node} : sameAll [] (m :: ms) = false := rfl

@[simp] theorem sameAll_cons_nil {n : Node} {ns : List Node} : sameAll (n :: ns) [] = false := rfl

@[simp] theorem sameAll_cons_cons {n m : Node} {ns ms : List Node} :
    sameAll (n :: ns) (m :: ms) = (same n m && sameAll ns ms) := rfl

/-! ## 3. What is the same as a node -/

section

variable {b : Bounds} {m : Node}

theorem exists_of_same_leaf {kind : LeafKind} {t : Text} (h : same (leaf kind t b) m = true) :
    ∃ b', m = leaf kind t b' := by
  cases m with
  | leaf =>
    simp only [same_leaf, Bool.and_eq_true, beq_iff_eq] at h
    exact ⟨_, by rw [h.1, h.2]⟩
  | string | group | dispatch | call | plain | placeholder =>
    simp [same, datum, Datum.same, Datum.plain?] at h

/-- A string node is the same as the plain text too. -/
theorem exists_of_same_string {t : Text} (h : same (string t b) m = true) :
    (∃ b', m = string t b') ∨ m = plain (.text t) := by
  cases m with
  | string =>
    rw [same_string, beq_iff_eq] at h
    exact .inl ⟨_, by rw [h]⟩
  | plain value =>
    cases value <;> simp_all [same, datum, Datum.same, Datum.plain?, Plain.key]
  | leaf | group | dispatch | call | placeholder =>
    simp [same, datum, Datum.same, Datum.plain?] at h

theorem exists_of_same_group {br : Bracket} {ns : List Node} (h : same (group br ns b) m = true) :
    ∃ ms b', m = group br ms b' ∧ sameAll ns ms = true := by
  cases m with
  | group =>
    simp only [same_group, Bool.and_eq_true, beq_iff_eq] at h
    exact ⟨_, _, by rw [h.1], h.2⟩
  | leaf | string | dispatch | call | plain | placeholder =>
    simp [same, datum, Datum.same, Datum.plain?] at h

theorem exists_of_same_dispatch {tag : Text} {ns : List Node} {c : Option Text}
    (h : same (dispatch tag ns c b) m = true) :
    ∃ ms c' b', m = dispatch tag ms c' b' ∧ sameAll ns ms = true := by
  cases m with
  | dispatch =>
    simp only [same_dispatch, Bool.and_eq_true, beq_iff_eq] at h
    exact ⟨_, _, _, by rw [h.1], h.2⟩
  | leaf | string | group | call | plain | placeholder =>
    simp [same, datum, Datum.same, Datum.plain?] at h

theorem exists_of_same_call {ns : List Node} (h : same (call ns b) m = true) :
    ∃ ms b', m = call ms b' ∧ sameAll ns ms = true := by
  cases m with
  | call => exact ⟨_, _, rfl, h⟩
  | leaf | string | group | dispatch | plain | placeholder =>
    simp [same, datum, Datum.same, Datum.plain?] at h

theorem eq_of_same_placeholder {l : Nat} (h : same (placeholder l) m = true) :
    m = placeholder l := by
  cases m with
  | placeholder =>
    rw [same_placeholder, beq_iff_eq] at h
    rw [h]
  | leaf | string | group | dispatch | call | plain =>
    simp [same, datum, Datum.same, Datum.plain?] at h

end

end Node

end SharpForms
