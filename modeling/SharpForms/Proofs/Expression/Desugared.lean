/-
# What the usual rules make of forms

`Desugars` says by rules what the usual walk makes of a forest: literals become symbols or numbers,
strings stay, and groups and sets become calls, with a head for those that are not in round
brackets.  It is the walk exactly (`evalAll_usual_eq_ok_iff`).

A call is printed like the group in round brackets around its items, head included.  Seen as that
form (`Node.asForm`), an expression becomes itself again (`Desugars.asForms`); so desugaring what
has been desugared changes nothing.  Nor do places matter (`Desugars.of_unplaced`).
-/
import SharpForms.Node.Printed
import SharpForms.Proofs.Expression.Joined
import SharpForms.Proofs.Form.Extent
import SharpForms.Proofs.Unplaced

namespace SharpForms

/-! ## 1. The rules -/

/-- The head that the usual rules put in front of the items of a group. -/
def Bracket.head? : Bracket → Option Text
  | .round => none
  | .square => some "vector".toList
  | .curly => some "hash-map".toList

/-- The only tag that the usual rules name. -/
def setTag : Text := "#\x7b".toList

/-- The head that they put in front of the items of a set. -/
def setHead : Text := "hash-set".toList

/-- All heads. -/
def usualHeads : List Text := ["vector".toList, "hash-map".toList, setHead]

/-- The kind of a literal's text. -/
def LeafKind.ofText (t : Text) : LeafKind := if t.isNumeric then .number else .symbol

/-- The items behind a head, if there is one; the head borrows the bounds of the whole. -/
def headed (head : Option Text) (at_ : Bounds) (items : List Node) : List Node :=
  match head with
  | none => items
  | some h => .leaf .symbol h at_ :: items

/-- By the usual rules the forms become the expressions. -/
inductive Desugars : List Node → List Node → Prop
  | empty : Desugars [] []
  | append {ns ns' xs xs' : List Node} :
      Desugars ns xs → Desugars ns' xs' → Desugars (ns ++ ns') (xs ++ xs')
  | literal {t : Text} {at_ : Bounds} :
      t ≠ [] → Desugars [.leaf .literal t at_] [.leaf (.ofText t) t at_]
  | string {t : Text} {at_ : Bounds} : Desugars [.string t at_] [.string t at_]
  | group {b : Bracket} {items xs : List Node} {at_ : Bounds} :
      Desugars items xs → Desugars [.group b items at_] [.call (headed b.head? at_ xs) at_]
  | set {items xs : List Node} {closer : Option Text} {at_ : Bounds} :
      Desugars items xs →
        Desugars [.dispatch setTag items closer at_] [.call (headed (some setHead) at_ xs) at_]

theorem mem_usualHeads {b : Bracket} : ∀ h ∈ b.head?, h ∈ usualHeads := by
  cases b <;> decide

theorem setHead_mem_usualHeads : ∀ h ∈ some setHead, h ∈ usualHeads := by decide

/-! ## 2. The rules are the walk -/

namespace Rules

variable {r : Rules} {n x : Node} {ns xs items : List Node} {head : Option Text} {t : Text}
  {at_ : Bounds}

theorem result_evalAll_cons :
    (r.evalAll (n :: ns)).result =
      (r.eval n).result.bind fun x => (r.evalAll ns).result.map (x :: ·) := by
  rw [evalAll, Traced.result_andThen]
  simp only [Traced.result_map]

/-- A node that becomes a sequence does so if its items become something. -/
theorem evalAround_of_sequence {items : Traced WalkError (List Node)}
    (h : r.actionFor n = .ok (.sequence head)) :
    (r.evalAround n items).result =
      items.result.map fun xs => .call (headed head n.bounds xs) n.bounds := by
  rw [evalAround, h, Traced.lift_ok, Traced.done_andThen, Traced.result_andThen]
  cases items.result with
  | error e => rfl
  | ok xs => cases head <;> rfl

theorem eval_literal : (usual.eval (.leaf .literal t at_)).result = classify t at_ := by
  have : usual.actionFor (.leaf .literal t at_) = .ok .literal := rfl
  rw [eval, evalLeaf, this, Traced.lift_ok, Traced.done_andThen, result_made]
  rfl

theorem eval_string : (usual.eval (.string t at_)).result = .ok (.string t at_) := rfl

theorem eval_group {b : Bracket} :
    (usual.eval (.group b items at_)).result =
      (usual.evalAll items).result.map fun xs => .call (headed b.head? at_ xs) at_ := by
  have : usual.actionFor (.group b items at_) = .ok (.sequence b.head?) := by cases b <;> rfl
  rw [eval, evalAround_of_sequence this]
  rfl

theorem eval_set {closer : Option Text} :
    (usual.eval (.dispatch setTag items closer at_)).result =
      (usual.evalAll items).result.map fun xs => .call (headed (some setHead) at_ xs) at_ := by
  have : usual.actionFor (.dispatch setTag items closer at_) = .ok (.sequence (some setHead)) := rfl
  rw [eval, evalAround_of_sequence this]
  rfl

theorem classify_eq_ok_iff :
    classify t at_ = .ok x ↔ t ≠ [] ∧ x = .leaf (.ofText t) t at_ := by
  unfold classify LeafKind.ofText
  cases t with
  | nil => simp
  | cons c t =>
    cases Text.isNumeric (c :: t) with
    | true => simpa using eq_comm
    | false => simpa using eq_comm

/-- What a mapped computation gives comes from what it gave before. -/
theorem exists_of_map_eq_ok {ε α β : Type} {x : Except ε α} {f : α → β} {b : β}
    (h : x.map f = .ok b) : ∃ a, x = .ok a ∧ f a = b := by
  cases x with
  | error e => cases h
  | ok a => exact ⟨a, rfl, Except.ok.inj h⟩

/-- A set is the only dispatch that becomes something. -/
theorem tag_eq_of_eval {tag : Text} {closer : Option Text}
    (h : (usual.eval (.dispatch tag items closer at_)).result = .ok x) : tag = setTag := by
  rw [← walk_eq_eval] at h
  obtain ⟨head, hmem⟩ := exists_tag_of_walk h
  exact congrArg Prod.fst (List.mem_singleton.1 hmem)

mutual

/-- What a node becomes, it becomes by the rules. -/
theorem desugars_of_eval : ∀ (n x : Node), (usual.eval n).result = .ok x → Desugars [n] [x]
  | .leaf kind t at_, x, h => by
    cases kind with
    | base | symbol | number => cases h
    | literal =>
      rw [eval_literal, classify_eq_ok_iff] at h
      obtain ⟨ht, rfl⟩ := h
      exact .literal ht
  | .string t at_, x, h => by
    rw [eval_string] at h
    obtain rfl := Except.ok.inj h
    exact .string
  | .group b items at_, x, h => by
    rw [eval_group] at h
    obtain ⟨xs, hxs, rfl⟩ := exists_of_map_eq_ok h
    exact .group (desugars_of_evalAll items xs hxs)
  | .dispatch tag items closer at_, x, h => by
    obtain rfl := tag_eq_of_eval h
    rw [eval_set] at h
    obtain ⟨xs, hxs, rfl⟩ := exists_of_map_eq_ok h
    exact .set (desugars_of_evalAll items xs hxs)
  | .call items at_, x, h => by cases h
  | .plain value, x, h => by cases h
  | .placeholder label, x, h => by cases h

theorem desugars_of_evalAll : ∀ (ns xs : List Node),
    (usual.evalAll ns).result = .ok xs → Desugars ns xs
  | [], xs, h => by
    obtain rfl : [] = xs := Except.ok.inj h
    exact .empty
  | n :: ns, xs, h => by
    rw [result_evalAll_cons] at h
    cases hx : (usual.eval n).result with
    | error e => rw [hx] at h; cases h
    | ok x =>
      rw [hx] at h
      obtain ⟨xs', hxs, rfl⟩ := exists_of_map_eq_ok h
      exact (desugars_of_eval n x hx).append (desugars_of_evalAll ns xs' hxs)

end

theorem result_evalAll_singleton :
    (r.evalAll [n]).result = (r.eval n).result.map ([·]) := by
  rw [result_evalAll_cons]
  cases (r.eval n).result <;> rfl

/-- **The rules are the usual walk.** -/
theorem evalAll_usual_eq_ok_iff : (usual.evalAll ns).result = .ok xs ↔ Desugars ns xs := by
  constructor
  · exact desugars_of_evalAll ns xs
  · intro h
    induction h with
    | empty => rfl
    | append _ _ ih ih' =>
      rw [← walkAll_eq_evalAll] at ih ih' ⊢
      rw [walkAll_append, ih, ih']
      rfl
    | literal ht =>
      rw [result_evalAll_singleton, eval_literal, classify_eq_ok_iff.2 ⟨ht, rfl⟩]
      rfl
    | string =>
      rw [result_evalAll_singleton, eval_string]
      rfl
    | group _ ih =>
      rw [result_evalAll_singleton, eval_group, ih]
      rfl
    | set _ ih =>
      rw [result_evalAll_singleton, eval_set, ih]
      rfl

end Rules

section

variable {ns ns' xs items : List Node} {t tag : Text} {at_ : Bounds}

/-- Forests side by side become what each of them becomes. -/
theorem desugars_append_iff :
    Desugars (ns ++ ns') xs ↔ ∃ ys zs, Desugars ns ys ∧ Desugars ns' zs ∧ ys ++ zs = xs := by
  constructor
  · intro h
    rw [← Rules.evalAll_usual_eq_ok_iff, ← Rules.walkAll_eq_evalAll, Rules.walkAll_append,
      Rules.walkAll_eq_evalAll, Rules.walkAll_eq_evalAll] at h
    cases hys : (Rules.usual.evalAll ns).result with
    | error e => rw [hys] at h; cases h
    | ok ys =>
      rw [hys] at h
      obtain ⟨zs, hzs, rfl⟩ := Rules.exists_of_map_eq_ok h
      exact ⟨ys, zs, Rules.evalAll_usual_eq_ok_iff.1 hys, Rules.evalAll_usual_eq_ok_iff.1 hzs, rfl⟩
  · rintro ⟨ys, zs, hys, hzs, rfl⟩
    exact hys.append hzs

theorem eq_of_desugars_nil (h : Desugars [] xs) : xs = [] :=
  (Except.ok.inj (Rules.evalAll_usual_eq_ok_iff.2 h)).symm

theorem eq_of_desugars_literal (h : Desugars [.leaf .literal t at_] xs) :
    xs = [.leaf (.ofText t) t at_] := by
  rw [← Rules.evalAll_usual_eq_ok_iff, Rules.result_evalAll_singleton, Rules.eval_literal] at h
  obtain ⟨x, hx, rfl⟩ := Rules.exists_of_map_eq_ok h
  rw [(Rules.classify_eq_ok_iff.1 hx).2]

theorem eq_of_desugars_string (h : Desugars [.string t at_] xs) : xs = [.string t at_] :=
  (Except.ok.inj (Rules.evalAll_usual_eq_ok_iff.2 h)).symm

theorem exists_of_desugars_group {b : Bracket} (h : Desugars [.group b items at_] xs) :
    ∃ ys, Desugars items ys ∧ xs = [.call (headed b.head? at_ ys) at_] := by
  rw [← Rules.evalAll_usual_eq_ok_iff, Rules.result_evalAll_singleton, Rules.eval_group] at h
  obtain ⟨x, hx, rfl⟩ := Rules.exists_of_map_eq_ok h
  obtain ⟨ys, hys, rfl⟩ := Rules.exists_of_map_eq_ok hx
  exact ⟨ys, Rules.evalAll_usual_eq_ok_iff.1 hys, rfl⟩

theorem exists_of_desugars_dispatch {closer : Option Text}
    (h : Desugars [.dispatch tag items closer at_] xs) :
    tag = setTag ∧ ∃ ys, Desugars items ys ∧ xs = [.call (headed (some setHead) at_ ys) at_] := by
  rw [← Rules.evalAll_usual_eq_ok_iff, Rules.result_evalAll_singleton] at h
  obtain ⟨x, hx, rfl⟩ := Rules.exists_of_map_eq_ok h
  obtain rfl := Rules.tag_eq_of_eval hx
  rw [Rules.eval_set] at hx
  obtain ⟨ys, hys, rfl⟩ := Rules.exists_of_map_eq_ok hx
  exact ⟨rfl, ys, Rules.evalAll_usual_eq_ok_iff.1 hys, rfl⟩

end

/-! ## 3. What passes through -/

namespace Desugars

variable {ns ms xs : List Node}

theorem mem_postorderAll_headed {head : Option Text} {at_ : Bounds} {n : Node}
    (hn : n ∈ Node.postorderAll xs) : n ∈ Node.postorderAll (headed head at_ xs) := by
  cases head with
  | none => exact hn
  | some h => exact List.mem_append_right _ hn

/-- **Each string stays**, at some depth. -/
theorem string_mem (h : Desugars ns xs) {t : Text} {at_ : Bounds}
    (ht : .string t at_ ∈ Node.postorderAll ns) : .string t at_ ∈ Node.postorderAll xs := by
  induction h with
  | empty => exact ht
  | append _ _ ih ih' =>
    rw [Node.postorderAll_append] at ht ⊢
    rcases List.mem_append.1 ht with ht | ht
    · exact List.mem_append_left _ (ih ht)
    · exact List.mem_append_right _ (ih' ht)
  | literal => simp [Node.postorder] at ht
  | string => exact ht
  | group _ ih | set _ ih =>
    simp only [Node.postorderAll_singleton, Node.postorder, List.mem_append, List.mem_singleton,
      reduceCtorEq, or_false] at ht ⊢
    exact mem_postorderAll_headed (ih ht)

/-- **Each dispatch that becomes something is a set**, at any depth. -/
theorem tag_eq (h : Desugars ns xs) {tag : Text} {items : List Node} {closer : Option Text}
    {at_ : Bounds} (ht : .dispatch tag items closer at_ ∈ Node.postorderAll ns) : tag = setTag := by
  induction h with
  | empty => cases ht
  | append _ _ ih ih' =>
    rw [Node.postorderAll_append] at ht
    rcases List.mem_append.1 ht with ht | ht
    · exact ih ht
    · exact ih' ht
  | literal | string => simp [Node.postorder] at ht
  | group _ ih =>
    simp only [Node.postorderAll_singleton, Node.postorder, List.mem_append, List.mem_singleton,
      reduceCtorEq, or_false] at ht
    exact ih ht
  | set _ ih =>
    rw [Node.postorderAll_singleton, Node.postorder] at ht
    rcases List.mem_append.1 ht with ht | ht
    · exact ih ht
    · exact (Node.dispatch.inj (List.mem_singleton.1 ht)).1

/-! ## 4. Places do not matter -/

theorem unplacedAll_call {ys : List Node} {head : Option Text} {a b : Bounds}
    (h : Node.unplacedAll xs = Node.unplacedAll ys) :
    Node.unplacedAll [.call (headed head a xs) a] =
      Node.unplacedAll [.call (headed head b ys) b] := by
  cases head <;> simp [headed, Node.unplacedAll, Node.unplaced, h]

/-- **Forms in other places become the same expressions**, in other places. -/
theorem of_unplaced (h : Desugars ns xs) (hm : Node.unplacedAll ms = Node.unplacedAll ns) :
    ∃ ys, Desugars ms ys ∧ Node.unplacedAll ys = Node.unplacedAll xs := by
  have single : ∀ {ms : List Node} {n : Node}, Node.unplacedAll ms = Node.unplacedAll [n] →
      ∃ m, ms = [m] ∧ m.unplaced = n.unplaced := by
    intro ms n hm
    rw [Node.unplacedAll_eq_map] at hm
    exact List.map_eq_singleton_iff.1 hm
  induction h generalizing ms with
  | empty =>
    rw [Node.unplacedAll_eq_map] at hm
    obtain rfl := List.map_eq_nil_iff.1 hm
    exact ⟨[], .empty, rfl⟩
  | append _ _ ih ih' =>
    rw [Node.unplacedAll_append, Node.unplacedAll_eq_map] at hm
    obtain ⟨ms₁, ms₂, rfl, h1, h2⟩ := List.map_eq_append_iff.1 hm
    rw [← Node.unplacedAll_eq_map] at h1 h2
    obtain ⟨ys, hys, hsame⟩ := ih h1
    obtain ⟨ys', hys', hsame'⟩ := ih' h2
    refine ⟨ys ++ ys', hys.append hys', ?_⟩
    rw [Node.unplacedAll_append, Node.unplacedAll_append, hsame, hsame']
  | literal ht =>
    obtain ⟨m, rfl, hone⟩ := single hm
    cases m <;> simp only [Node.unplaced, reduceCtorEq] at hone
    obtain ⟨rfl, rfl, -⟩ := Node.leaf.inj hone
    exact ⟨_, .literal ht, rfl⟩
  | string =>
    obtain ⟨m, rfl, hone⟩ := single hm
    cases m <;> simp only [Node.unplaced, reduceCtorEq] at hone
    obtain ⟨rfl, -⟩ := Node.string.inj hone
    exact ⟨_, .string, rfl⟩
  | group _ ih =>
    obtain ⟨m, rfl, hone⟩ := single hm
    cases m <;> simp only [Node.unplaced, reduceCtorEq] at hone
    obtain ⟨rfl, hitems, -⟩ := Node.group.inj hone
    obtain ⟨ys, hys, hsame⟩ := ih hitems
    exact ⟨_, .group hys, unplacedAll_call hsame⟩
  | set _ ih =>
    obtain ⟨m, rfl, hone⟩ := single hm
    cases m <;> simp only [Node.unplaced, reduceCtorEq] at hone
    obtain ⟨rfl, hitems, -⟩ := Node.dispatch.inj hone
    obtain ⟨ys, hys, hsame⟩ := ih hitems
    exact ⟨_, .set hys, unplacedAll_call hsame⟩

end Desugars

/-! ## 5. Expressions as forms -/

namespace Node

mutual

/-- The form that an expression is printed like. -/
def asForm : Node → Node
  | leaf _ text at_ => leaf .literal text at_
  | call items at_ => group .round (asForms items) at_
  | string text at_ => string text at_
  | group b items at_ => group b items at_
  | dispatch tag items closer at_ => dispatch tag items closer at_
  | plain value => plain value
  | placeholder label => placeholder label

/-- The forms that expressions are printed like. -/
def asForms : List Node → List Node
  | [] => []
  | n :: ns => asForm n :: asForms ns

end

theorem asForms_eq_map (ns : List Node) : asForms ns = ns.map asForm := by
  induction ns with
  | nil => rfl
  | cons n ns ih => simp [asForms, ih]

@[simp] theorem asForms_append (ns ms : List Node) :
    asForms (ns ++ ms) = asForms ns ++ asForms ms := by
  simp [asForms_eq_map]

mutual

/-- An expression and its form have one printed text. -/
theorem print_asForm : ∀ n : Node, n.asForm.print = n.print
  | call items _ => by
    simp only [asForm, print, printAll_eq, map_print_asForms items]
    rfl
  | leaf .. | string .. | group .. | dispatch .. | plain _ | placeholder _ => rfl

theorem map_print_asForms : ∀ ns : List Node, (asForms ns).map print = ns.map print
  | [] => rfl
  | n :: ns => by rw [asForms, List.map_cons, List.map_cons, print_asForm n, map_print_asForms ns]

end

theorem printAll_asForms (ns : List Node) : printAll (asForms ns) = printAll ns := by
  rw [printAll_eq, printAll_eq, map_print_asForms]

mutual

/-- An expression can be printed if its form can. -/
theorem unprintable?_asForm : ∀ n : Node, n.asForm.unprintable? = n.unprintable?
  | call items _ => by simp only [asForm, unprintable?, unprintableAmong?_asForms items]
  | leaf .. | string .. | group .. | dispatch .. | plain _ | placeholder _ => rfl

theorem unprintableAmong?_asForms : ∀ ns : List Node,
    unprintableAmong? (asForms ns) = unprintableAmong? ns
  | [] => rfl
  | n :: ns => by
    simp only [asForms, unprintableAmong?, unprintable?_asForm n, unprintableAmong?_asForms ns]

end

end Node

/-- A head, as a literal, becomes a symbol. -/
theorem desugars_headed {head : Option Text} {at_ : Bounds} {xs : List Node}
    (hhead : ∀ h ∈ head, h ∈ usualHeads) (h : Desugars (Node.asForms xs) xs) :
    Desugars (Node.asForms (headed head at_ xs)) (headed head at_ xs) := by
  have symbol : ∀ t ∈ usualHeads, t ≠ [] ∧ LeafKind.ofText t = .symbol := by decide
  cases head with
  | none => exact h
  | some t =>
    obtain ⟨ht, hkind⟩ := symbol t (hhead t rfl)
    have hlit : Desugars [.leaf .literal t at_] [.leaf .symbol t at_] := by
      rw [← hkind]
      exact .literal ht
    exact hlit.append h

/-- **Desugaring is a fixed point.**  What forms become, seen as forms, becomes itself. -/
theorem Desugars.asForms {ns xs : List Node} (h : Desugars ns xs) :
    Desugars (Node.asForms xs) xs := by
  induction h with
  | empty => exact .empty
  | append _ _ ih ih' =>
    rw [Node.asForms_append]
    exact ih.append ih'
  | literal ht => exact .literal ht
  | string => exact .string
  | @group b _ _ at_ _ ih => exact .group (b := .round) (desugars_headed mem_usualHeads ih)
  | set _ ih => exact .group (b := .round) (desugars_headed setHead_mem_usualHeads ih)

end SharpForms
