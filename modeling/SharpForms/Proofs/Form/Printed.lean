/-
# The same forms in print

Equality of nodes looks neither at where they came from nor at the text that ended a dispatch
region.  Printing does not look at places either, but it does look at that text: a dispatch that
holds none is printed as its tag alone, whatever items it has.  So the same nodes print the same
where the same texts ended their regions (`dump_eq_of_closedAlike`).

What is read holds the texts that its tags ask for, so forms that are read and are the same print
the same (`dump_eq_of_closedByTag`).  A dispatch made by hand may hold another text or none, and
then two nodes that are the same print differently (`dump_dispatch_without_closer`).
-/
import SharpForms.Proofs.Form.ReadBack

namespace SharpForms
namespace Node

/-! ## 1. Printing does not see places -/

mutual

@[simp] theorem print_unplaced : ∀ n : Node, n.unplaced.print = n.print
  | leaf .. | string .. | plain _ | placeholder _ => rfl
  | group _ items _ | call items _ => by simp only [unplaced, print, printAll_unplacedAll items]
  | dispatch _ items closer _ => by
    cases closer with
    | none => rfl
    | some closer => simp only [unplaced, print, printAll_unplacedAll items]

@[simp] theorem printAll_unplacedAll : ∀ ns : List Node, printAll (unplacedAll ns) = printAll ns
  | [] => rfl
  | [n] => print_unplaced n
  | n :: m :: ms => by
    have ih := printAll_unplacedAll (m :: ms)
    rw [unplacedAll] at ih ⊢
    rw [unplacedAll, printAll_cons_cons, printAll_cons_cons, print_unplaced n, ih]

end

/-- Forms that differ only in places print the same. -/
theorem printAll_of_unplaced {ns ms : List Node} (h : unplacedAll ms = unplacedAll ns) :
    printAll ms = printAll ns := by
  rw [← printAll_unplacedAll ms, h, printAll_unplacedAll]

mutual

theorem unprintable?_unplaced : ∀ n : Node, n.unplaced.unprintable? = n.unprintable?
  | leaf .. | string .. | plain _ | placeholder _ => rfl
  | group _ items _ | call items _ => by
    simp only [unplaced, unprintable?, unprintableAmong?_unplacedAll items]
  | dispatch _ items closer _ => by
    cases closer with
    | none => rfl
    | some closer => simp only [unplaced, unprintable?, unprintableAmong?_unplacedAll items]

theorem unprintableAmong?_unplacedAll : ∀ ns : List Node,
    unprintableAmong? (unplacedAll ns) = unprintableAmong? ns
  | [] => rfl
  | n :: ns => by
    rw [unplacedAll, unprintableAmong?, unprintableAmong?, unprintable?_unplaced n,
      unprintableAmong?_unplacedAll ns]

end

/-- Whether nodes have a printed form, and which one, does not depend on their places. -/
theorem dump_unplacedAll (ns : List Node) : dump (unplacedAll ns) = dump ns := by
  rw [dump, dump, unprintableAmong?_unplacedAll, printAll_unplacedAll]

/-! ## 2. What ended the regions -/

/-- The node is not a plain value. -/
def isNode : Node → Bool
  | plain _ => false
  | _ => true

mutual

/-- Dispatches in the same position of two trees hold the same text behind their regions. -/
def closedAlike : Node → Node → Bool
  | group _ items _, group _ items' _ => closedAlikeAll items items'
  | dispatch _ items closer _, dispatch _ items' closer' _ =>
    closer == closer' && closedAlikeAll items items'
  | call items _, call items' _ => closedAlikeAll items items'
  | _, _ => true

/-- The trees of two forests are closed alike, one by one. -/
def closedAlikeAll : List Node → List Node → Bool
  | n :: ns, m :: ms => closedAlike n m && closedAlikeAll ns ms
  | _, _ => true

end

mutual

/-- **Nodes that are the same and closed alike differ only in places.** -/
theorem unplaced_of_closedAlike : ∀ n m : Node, (∀ k ∈ n.postorder, k.isNode = true) →
    (∀ k ∈ m.postorder, k.isNode = true) → same n m = true → closedAlike n m = true →
      n.unplaced = m.unplaced
  | leaf kind t at_, m, _, _, h, _ => by
    obtain ⟨at', rfl⟩ := exists_of_same_leaf h
    rfl
  | string t at_, m, _, hm, h, _ => by
    rcases exists_of_same_string h with ⟨at', rfl⟩ | rfl
    · rfl
    · simp [postorder, isNode] at hm
  | placeholder label, m, _, _, h, _ => by rw [eq_of_same_placeholder h]
  | plain value, m, hn, _, _, _ => by simp [postorder, isNode] at hn
  | group b items at_, m, hn, hm, h, hc => by
    obtain ⟨items', at', rfl, hsame⟩ := exists_of_same_group h
    rw [postorder, List.forall_mem_append] at hn hm
    rw [unplaced, unplaced, unplacedAll_of_closedAlikeAll items items' hn.1 hm.1 hsame hc]
  | dispatch tag items closer at_, m, hn, hm, h, hc => by
    obtain ⟨items', closer', at', rfl, hsame⟩ := exists_of_same_dispatch h
    rw [postorder, List.forall_mem_append] at hn hm
    simp only [closedAlike, Bool.and_eq_true, beq_iff_eq] at hc
    rw [unplaced, unplaced, hc.1, unplacedAll_of_closedAlikeAll items items' hn.1 hm.1 hsame hc.2]
  | call items at_, m, hn, hm, h, hc => by
    obtain ⟨items', at', rfl, hsame⟩ := exists_of_same_call h
    rw [postorder, List.forall_mem_append] at hn hm
    rw [unplaced, unplaced, unplacedAll_of_closedAlikeAll items items' hn.1 hm.1 hsame hc]

theorem unplacedAll_of_closedAlikeAll : ∀ ns ms : List Node,
    (∀ k ∈ postorderAll ns, k.isNode = true) → (∀ k ∈ postorderAll ms, k.isNode = true) →
      sameAll ns ms = true → closedAlikeAll ns ms = true → unplacedAll ns = unplacedAll ms
  | [], [], _, _, _, _ => rfl
  | [], _ :: _, _, _, h, _ => by simp at h
  | _ :: _, [], _, _, h, _ => by simp at h
  | n :: ns, m :: ms, hn, hm, h, hc => by
    rw [postorderAll, List.forall_mem_append] at hn hm
    rw [sameAll_cons_cons, Bool.and_eq_true] at h
    rw [closedAlikeAll, Bool.and_eq_true] at hc
    rw [unplacedAll, unplacedAll, unplaced_of_closedAlike n m hn.1 hm.1 h.1 hc.1,
      unplacedAll_of_closedAlikeAll ns ms hn.2 hm.2 h.2 hc.2]

end

/-- **Nodes that are the same and closed alike print the same.** -/
theorem dump_eq_of_closedAlike {ns ms : List Node} (hn : ∀ k ∈ postorderAll ns, k.isNode = true)
    (hm : ∀ k ∈ postorderAll ms, k.isNode = true) (hsame : sameAll ns ms = true)
    (hclosed : closedAlikeAll ns ms = true) : dump ns = dump ms := by
  have hplaces := unplacedAll_of_closedAlikeAll ns ms hn hm hsame hclosed
  rw [← dump_unplacedAll ns, hplaces, dump_unplacedAll]

/-! ## 3. Regions ended by what the tags ask for -/

/-- The node is a form, and if it is a dispatch, its region was ended by what its tag asks for. -/
def ClosedByTag (d : Dialect) : Node → Prop
  | .dispatch tag _ closer _ => closer = tag.getLast?.bind fun e => d.regionCloser? [e]
  | .leaf .. | .string .. | .group .. => True
  | .call .. | .plain _ | .placeholder _ => False

variable {d : Dialect}

theorem isNode_of_closedByTag {n : Node} (h : n.ClosedByTag d) : n.isNode = true := by
  cases n with
  | plain value => exact h.elim
  | leaf | string | group | dispatch | call | placeholder => rfl

mutual

/-- Where the tags say what ends a region, the same forms are closed alike. -/
theorem closedAlike_of_closedByTag : ∀ n m : Node, (∀ k ∈ n.postorder, k.ClosedByTag d) →
    (∀ k ∈ m.postorder, k.ClosedByTag d) → same n m = true → closedAlike n m = true
  | leaf .., m, _, _, _ | string .., m, _, _, _ | plain _, m, _, _, _
  | placeholder _, m, _, _, _ => by cases m <;> rfl
  | group b items at_, m, hn, hm, h => by
    obtain ⟨items', at', rfl, hsame⟩ := exists_of_same_group h
    rw [postorder, List.forall_mem_append] at hn hm
    exact closedAlikeAll_of_closedByTag items items' hn.1 hm.1 hsame
  | dispatch tag items closer at_, m, hn, hm, h => by
    obtain ⟨items', closer', at', rfl, hsame⟩ := exists_of_same_dispatch h
    rw [postorder, List.forall_mem_append, List.forall_mem_singleton] at hn hm
    have hcloser : closer = closer' := hn.2.trans hm.2.symm
    simp only [closedAlike, hcloser, beq_self_eq_true, Bool.true_and]
    exact closedAlikeAll_of_closedByTag items items' hn.1 hm.1 hsame
  | call items at_, m, hn, _, _ => (hn _ (mem_postorder_self _)).elim

theorem closedAlikeAll_of_closedByTag : ∀ ns ms : List Node,
    (∀ k ∈ postorderAll ns, k.ClosedByTag d) → (∀ k ∈ postorderAll ms, k.ClosedByTag d) →
      sameAll ns ms = true → closedAlikeAll ns ms = true
  | [], _, _, _, _ => by rw [closedAlikeAll]; simp
  | _ :: _, [], _, _, _ => rfl
  | n :: ns, m :: ms, hn, hm, h => by
    rw [postorderAll, List.forall_mem_append] at hn hm
    rw [sameAll_cons_cons, Bool.and_eq_true] at h
    rw [closedAlikeAll, Bool.and_eq_true]
    exact ⟨closedAlike_of_closedByTag n m hn.1 hm.1 h.1,
      closedAlikeAll_of_closedByTag ns ms hn.2 hm.2 h.2⟩

end

/-- Equality does not look at what ended a region; where the tags say it, the same forms differ
only in places. -/
theorem unplacedAll_of_sameAll {ns ms : List Node} (hn : ∀ k ∈ postorderAll ns, k.ClosedByTag d)
    (hm : ∀ k ∈ postorderAll ms, k.ClosedByTag d) (hsame : sameAll ns ms = true) :
    unplacedAll ns = unplacedAll ms :=
  unplacedAll_of_closedAlikeAll ns ms (fun k hk => isNode_of_closedByTag (hn k hk))
    (fun k hk => isNode_of_closedByTag (hm k hk)) hsame
    (closedAlikeAll_of_closedByTag ns ms hn hm hsame)

/-- **The same forms print the same if their regions were ended by what their tags ask for.** -/
theorem dump_eq_of_closedByTag {ns ms : List Node} (hn : ∀ k ∈ postorderAll ns, k.ClosedByTag d)
    (hm : ∀ k ∈ postorderAll ms, k.ClosedByTag d) (hsame : sameAll ns ms = true) :
    dump ns = dump ms := by
  rw [← dump_unplacedAll ns, unplacedAll_of_sameAll hn hm hsame, dump_unplacedAll]

end Node

/-- What is read is closed by its tags. -/
theorem Forest.closedByTag_of_mem {d : Dialect} {cs : List Cell} {ns : List Node}
    (hf : Forest d.byKind cs ns) : ∀ n ∈ Node.postorderAll ns, n.ClosedByTag d := by
  intro n hn
  obtain ⟨before, mid, after, -, hform⟩ := hf.exists_form_of_mem hn
  cases hform with
  | literal | group | string => trivial
  | tag ht =>
    obtain ⟨-, e, hlast, hr⟩ := ht
    simp [Node.ClosedByTag, hlast, hr]
  | region hr =>
    obtain ⟨-, e, hlast, hr⟩ := hr
    simp [Node.ClosedByTag, hlast, hr]

/-! ## 4. Equality and print -/

namespace Node

variable {d : Dialect}

/-- A dispatch whose tag asks for a text is printed with its items and that text exactly if its
region was ended by it. -/
theorem print_dispatch_iff {tag closer' : Text} {items : List Node} {closer : Option Text}
    {at_ : Bounds} {e : Char} (hlast : tag.getLast? = some e)
    (hr : d.regionCloser? [e] = some closer') (hne : closer' ≠ []) :
    (dispatch tag items closer at_).print = tag ++ printAll items ++ closer' ↔
      (dispatch tag items closer at_).ClosedByTag d := by
  have hasked : (tag.getLast?.bind fun e => d.regionCloser? [e]) = some closer' := by
    rw [hlast, Option.bind_some, hr]
  rw [ClosedByTag, hasked]
  cases closer with
  | none => simp [print, hne]
  | some closer => simp [print]

/-- **Nodes that are the same print the same where the same texts ended their regions.**

* That is so if each region was ended by what its tag asks for, and in particular if the nodes were
  read, whatever they were read from.
* A dispatch whose tag asks for a text is printed as its tag, its items and that text exactly if
  its region was ended by it. -/
theorem dump_eq_of_same {ns ms : List Node} (hn : ∀ k ∈ postorderAll ns, k.isNode = true)
    (hm : ∀ k ∈ postorderAll ms, k.isNode = true) (hsame : sameAll ns ms = true) :
    (closedAlikeAll ns ms = true → dump ns = dump ms) ∧
      ((∀ k ∈ postorderAll ns ++ postorderAll ms, k.ClosedByTag d) → dump ns = dump ms) ∧
      (∀ ts us, (d.read ts).result = .ok ns → (d.read us).result = .ok ms → dump ns = dump ms) ∧
      ∀ tag items closer at_ e closer', tag.getLast? = some e →
        d.regionCloser? [e] = some closer' → closer' ≠ [] →
          ((dispatch tag items closer at_).print = tag ++ printAll items ++ closer' ↔
            (dispatch tag items closer at_).ClosedByTag d) := by
  refine ⟨dump_eq_of_closedAlike hn hm hsame, ?_, ?_, ?_⟩
  · intro hclosed
    rw [List.forall_mem_append] at hclosed
    exact dump_eq_of_closedByTag hclosed.1 hclosed.2 hsame
  · intro ts us hns hms
    exact dump_eq_of_closedByTag (Dialect.read_eq_ok_iff.1 hns).closedByTag_of_mem
      (Dialect.read_eq_ok_iff.1 hms).closedByTag_of_mem hsame
  · intro tag items closer at_ e closer' hlast hr hne
    exact print_dispatch_iff hlast hr hne

/-- A set as it is read, and one made by hand that knows its closer but no places. -/
theorem dump_eq_of_same_set :
    let one (b : Bounds) : Node := .leaf .literal ['1'] b
    let ns : List Node :=
      [.dispatch ['#', '\x7b'] [one ⟨some 1, some 1, some 1, some 3⟩] (some ['\x7d'])
        ⟨some 0, some 2, some 1, some 1⟩]
    let ms : List Node := [.dispatch ['#', '\x7b'] [one {}] (some ['\x7d']) {}]
    sameAll ns ms = true ∧ closedAlikeAll ns ms = true ∧
      dump ns = dump ms ∧ dump ms = .ok "#\x7b1\x7d".toList := by
  intro one ns ms
  have hn : ∀ k ∈ postorderAll ns, k.isNode = true := by decide
  have hm : ∀ k ∈ postorderAll ms, k.isNode = true := by decide
  have hsame : sameAll ns ms = true := by decide
  have hclosed : closedAlikeAll ns ms = true := by decide
  exact ⟨hsame, hclosed, (dump_eq_of_same (d := .usual) hn hm hsame).1 hclosed, rfl⟩

/-- Two sets that are the same, and one of them, made by hand, does not know its closer.  It is
printed without its item, though its tag ends in an opener. -/
theorem dump_dispatch_without_closer :
    let set (closer : Option Text) : Node :=
      .dispatch ['#', '\x7b'] [.leaf .literal ['1'] {}] closer {}
    same (set (some ['\x7d'])) (set none) = true ∧
      Dialect.usual.regionCloser? ['\x7b'] = some ['\x7d'] ∧
      dump [set (some ['\x7d'])] = .ok "#\x7b1\x7d".toList ∧
      dump [set none] = .ok "#\x7b".toList := by
  intro set
  exact ⟨by decide, by decide, rfl, rfl⟩

end Node

end SharpForms
